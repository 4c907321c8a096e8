import ClasspathAudit.ClassFile.Scan
import ClasspathAudit.Proofs.ClassFile.CodeFormat

/-
# The written form of whole class files

A compiled class is written as the number that marks class files, its version, its constant pool,
its names and then its fields, methods and attributes. The scan of a well-formed class finds its
name and its mentions of types, each once for each place and in the order of the file.
-/
namespace ClasspathAudit
namespace ClassFile

open Decoder

/-! ### Methods -/

/-- The body of an attribute of a method, generic forms apart. -/
inductive MethodBody
  /-- The classes of exceptions that the method declares. -/
  | exceptions (classes : List Index)
  /-- The code. -/
  | code (c : Code)
  /-- The annotations of each parameter, at run time visible or not. -/
  | parameterAnnotations (parameters : List (List AnnotationItem))
  /-- The value that a member of an annotation has if none is given. -/
  | annotationDefault (value : ElementValue)
  /-- What may stand on any structure. -/
  | common (body : CommonBody)

namespace MethodBody

variable {pool : ConstantPool}

/-- The names of attributes that hold annotations of parameters. -/
def parameterNames : List String :=
  ["RuntimeVisibleParameterAnnotations", "RuntimeInvisibleParameterAnnotations"]

/-- The written form of a body. -/
def encode : MethodBody → Bytes
  | exceptions classes => table (fun i => twoBytes i.toNat) classes
  | code c => c.encode
  | parameterAnnotations parameters =>
    UInt8.ofNat parameters.length :: parameters.flatMap (table AnnotationItem.encode)
  | annotationDefault value => value.encode
  | common body => body.encode

/-- Whether a body is what an attribute called `name` holds. -/
def WellFormed (pool : ConstantPool) (name : String) : MethodBody → Prop
  | exceptions classes =>
    name = "Exceptions" ∧ classes.length < 2 ^ 16 ∧ ∀ i ∈ classes, pool.HasClass i
  | code c => name = "Code" ∧ c.WellFormed pool
  | parameterAnnotations parameters =>
    name ∈ parameterNames ∧ parameters.length < 2 ^ 8 ∧
      ∀ l ∈ parameters, l.length < 2 ^ 16 ∧ ∀ a ∈ l, a.WellFormed pool
  | annotationDefault value => name = "AnnotationDefault" ∧ value.WellFormed pool
  | common body =>
    name ∉ "Exceptions" :: "Code" :: "AnnotationDefault" :: parameterNames ∧
      body.WellFormed pool name

/-- The types that a body mentions. -/
def uses (pool : ConstantPool) : MethodBody → List TypeUse
  | exceptions classes => classes.flatMap (pool.nameUse .thrownException)
  | code c => c.uses pool
  | parameterAnnotations parameters =>
    parameters.flatMap fun l => l.flatMap (AnnotationItem.uses pool)
  | annotationDefault value => value.uses pool
  | common body => body.uses pool

lemma finds_decodeMethodAttribute {name : String} {b : MethodBody} (h : b.WellFormed pool name) :
    Finds (decodeMethodAttribute pool name) b.encode (b.uses pool) := by
  cases b with
  | exceptions classes =>
    obtain ⟨rfl, hlt, hclasses⟩ := h
    refine (reads_counted hlt fun i hi => ?_).finds
    obtain ⟨exception, -, hread, huse⟩ := (hclasses i hi).reads
    rw [huse]
    exact hread.map (f := fun exception => [_])
  | code c =>
    obtain ⟨rfl, hcode⟩ := h
    exact (Code.reads_encode hcode).finds
  | parameterAnnotations parameters =>
    obtain ⟨hname, hlt, hparameters⟩ := h
    have hread : Reads (do let n ← u1; repeated n (Annotations.list pool))
        (encode (parameterAnnotations parameters))
        (uses pool (parameterAnnotations parameters)) := by
      have hcount : (UInt8.ofNat parameters.length).toNat = parameters.length := by
        rw [UInt8.toNat_ofNat', Nat.mod_eq_of_lt hlt]
      refine (reads_u1 _).bind ?_
      rw [hcount]
      exact reads_repeated fun l hl =>
        Annotations.reads_list (hparameters l hl).1 (hparameters l hl).2
    simp only [parameterNames, List.mem_cons, List.not_mem_nil, or_false] at hname
    rcases hname with rfl | rfl <;> exact hread.finds
  | annotationDefault value =>
    obtain ⟨rfl, hvalue⟩ := h
    exact (Annotations.reads_value hvalue).finds
  | common body =>
    obtain ⟨hname, hbody⟩ := h
    simp only [parameterNames, List.mem_cons, List.not_mem_nil, or_false, not_or] at hname
    obtain ⟨hexceptions, hcode, hdefault, hvisible, hinvisible⟩ := hname
    -- the name is none of those that mean something on methods alone
    rw [decodeMethodAttribute, if_neg hexceptions, if_neg hcode,
      if_neg (not_or.2 ⟨hvisible, hinvisible⟩), if_neg hdefault]
    exact CommonBody.finds_ofAttribute hbody

end MethodBody

/-- A method. -/
structure Method where
  /-- Its access flags. -/
  flags : UInt16
  /-- The index of its name. -/
  name : Index
  /-- Its type and its attributes. -/
  typed : Typed MethodBody

namespace Method

variable {pool : ConstantPool}

/-- The written form of a method. -/
def encode (m : Method) : Bytes :=
  twoBytes m.flags.toNat ++ twoBytes m.name.toNat ++ m.typed.encode MethodBody.encode

/-- Whether a method is well-formed. -/
def WellFormed (pool : ConstantPool) (m : Method) : Prop :=
  m.typed.WellFormed pool MethodBody.encode (MethodBody.WellFormed pool)

/-- The types that a method mentions. -/
def uses (pool : ConstantPool) (m : Method) : List TypeUse :=
  m.typed.uses pool .methodType (MethodBody.uses pool)

lemma reads_encode {m : Method} (h : m.WellFormed pool) :
    Reads (decodeMethod pool) m.encode (m.uses pool) :=
  (reads_skip (by simp)).bind
    (Typed.reads_typed h fun _ _ hb => MethodBody.finds_decodeMethodAttribute hb)

end Method

/-! ### Attributes of classes -/

/-- The body of an attribute of a class. -/
inductive ClassBody
  /-- The generic form of the superclass and the interfaces. -/
  | signature (text : Index)
  /-- The components of a record. -/
  | record (components : List RecordComponent)
  /-- What may stand on any structure. -/
  | common (body : CommonBody)

namespace ClassBody

variable {pool : ConstantPool}

/-- The written form of a body. -/
def encode : ClassBody → Bytes
  | signature text => twoBytes text.toNat
  | record components => table RecordComponent.encode components
  | common body => body.encode

/-- Whether a body is what an attribute called `name` holds. -/
def WellFormed (pool : ConstantPool) (name : String) : ClassBody → Prop
  | signature text => name = "Signature" ∧ pool.HasText text
  | record components =>
    name = "Record" ∧ components.length < 2 ^ 16 ∧ ∀ c ∈ components, c.WellFormed pool
  | common body => name ≠ "Signature" ∧ name ≠ "Record" ∧ body.WellFormed pool name

/-- The types that a body mentions. -/
def uses (pool : ConstantPool) : ClassBody → List TypeUse
  | signature text => pool.signatureUse .classSignature text
  | record components => components.flatMap (RecordComponent.uses pool)
  | common body => body.uses pool

lemma finds_decodeClassAttribute {name : String} {b : ClassBody} (h : b.WellFormed pool name) :
    Finds (decodeClassAttribute pool name) b.encode (b.uses pool) := by
  cases b with
  | signature text =>
    obtain ⟨rfl, htext⟩ := h
    obtain ⟨signature, -, hread, huse⟩ := htext.reads
    rw [uses, huse]
    exact (hread.map (f := fun _ => [_])).finds
  | record components =>
    obtain ⟨rfl, hlt, hcomponents⟩ := h
    exact (reads_counted hlt fun c hc => RecordComponent.reads_encode (hcomponents c hc)).finds
  | common body =>
    obtain ⟨hsignature, hrecord, hbody⟩ := h
    rw [decodeClassAttribute, if_neg hsignature, if_neg hrecord]
    exact CommonBody.finds_ofAttribute hbody

end ClassBody

/-! ### Classes -/

/-- A compiled class, as a file holds it. -/
structure CompiledClass where
  /-- The minor version. -/
  minorVersion : UInt16
  /-- The major version. -/
  majorVersion : UInt16
  /-- The entries of the constant pool. -/
  constants : List PoolEntry
  /-- The access flags. -/
  flags : UInt16
  /-- The index of the class itself. -/
  thisClass : Index
  /-- The index of the superclass; zero if there is none. -/
  superclass : Index
  /-- The indices of the interfaces. -/
  interfaces : List Index
  /-- The fields. -/
  fields : List Field
  /-- The methods. -/
  methods : List Method
  /-- The attributes. -/
  attributes : List (Attribute ClassBody)

namespace CompiledClass

/-- The constant pool. -/
def pool (c : CompiledClass) : ConstantPool :=
  .ofEntries c.constants

/-- The written form of a class behind its constant pool. -/
def encodeBody (c : CompiledClass) : Bytes :=
  twoBytes c.flags.toNat ++ (twoBytes c.thisClass.toNat ++ (twoBytes c.superclass.toNat ++
    (table (fun i => twoBytes i.toNat) c.interfaces ++ (table Field.encode c.fields ++
      (table Method.encode c.methods ++ table (Attribute.encode ClassBody.encode) c.attributes)))))

/-- The written form of a class. -/
def encode (c : CompiledClass) : Bytes :=
  fourBytes magicNumber ++ ((twoBytes c.minorVersion.toNat ++ twoBytes c.majorVersion.toNat) ++
    (ConstantPool.encode c.constants ++ c.encodeBody))

/-- Whether the version is supported, all counts and lengths fit their fields, and every index that
is followed leads where it has to. -/
structure WellFormed (c : CompiledClass) : Prop where
  version : 45 ≤ c.majorVersion.toNat ∧ c.majorVersion.toNat ≤ 70
  constants : ConstantPool.EntriesFit c.constants
  thisClass : c.pool.HasClass c.thisClass
  superclass : c.pool.HasClassOrNone c.superclass
  interfaceCount : c.interfaces.length < 2 ^ 16
  interfaces : ∀ i ∈ c.interfaces, c.pool.HasClass i
  fieldCount : c.fields.length < 2 ^ 16
  fields : ∀ f ∈ c.fields, f.WellFormed c.pool
  methodCount : c.methods.length < 2 ^ 16
  methods : ∀ m ∈ c.methods, m.WellFormed c.pool
  attributes : Attribute.ListWellFormed c.pool ClassBody.encode (ClassBody.WellFormed c.pool)
    c.attributes

/-- The types that a class mentions: its superclass, its interfaces, its fields, its methods, then
what its attributes hold. -/
def uses (c : CompiledClass) : List TypeUse :=
  c.pool.optionalUse .superclass c.superclass ++
    c.interfaces.flatMap (c.pool.nameUse .interface) ++
    c.fields.flatMap (Field.uses c.pool) ++
    c.methods.flatMap (Method.uses c.pool) ++
    c.attributes.flatMap fun a => a.body.uses c.pool

lemma reads_encodeBody {c : CompiledClass} (h : c.WellFormed) {name : String}
    (hname : c.pool.className? c.thisClass.toNat = some name) :
    Reads (decodeBody c.pool) c.encodeBody ⟨ClassName.ofInternal name, c.uses⟩ := by
  have hthis : Reads c.pool.readClassName (twoBytes c.thisClass.toNat) name :=
    ConstantPool.reads_readIndex fun _ => ConstantPool.className_eq_ok hname
  have hsuperclass : Reads (decodeSuperclass c.pool) (twoBytes c.superclass.toNat)
      (c.pool.optionalUse .superclass c.superclass) :=
    ConstantPool.reads_optionalUse .superclass h.superclass
  have hinterfaces : Reads (counted (decodeInterface c.pool))
      (table (fun i => twoBytes i.toNat) c.interfaces)
      (c.interfaces.flatMap (c.pool.nameUse .interface)) := by
    refine reads_counted h.interfaceCount fun i hi => ?_
    obtain ⟨interface, -, hread, huse⟩ := (h.interfaces i hi).reads
    rw [huse]
    exact hread.map (f := fun _ => [_])
  have hfields := reads_counted h.fieldCount fun f hf => Field.reads_encode (h.fields f hf)
  have hmethods := reads_counted h.methodCount fun m hm => Method.reads_encode (h.methods m hm)
  have hattributes := Attribute.reads_decodeAttributes h.attributes
    fun _ _ hb => ClassBody.finds_decodeClassAttribute hb
  refine (reads_skip (length_twoBytes _)).bind (hthis.bind (hsuperclass.bind ?_))
  exact hinterfaces.bind (hfields.bind (hmethods.bind hattributes.map))

lemma reads_encode {c : CompiledClass} (h : c.WellFormed) {name : String}
    (hname : c.pool.className? c.thisClass.toNat = some name) :
    Reads ClassFile.decode c.encode ⟨ClassName.ofInternal name, c.uses⟩ := by
  have hmagic : Reads decodeMagic (fourBytes magicNumber) () :=
    (reads_u4 (by decide)).bindNil (reads_pure ())
  have hversion : Reads decodeVersion
      (twoBytes c.minorVersion.toNat ++ twoBytes c.majorVersion.toNat) () := by
    refine (reads_u2 c.minorVersion.toNat_lt).bind ((reads_u2 c.majorVersion.toNat_lt).bindNil ?_)
    have hmajor : minMajorVersion ≤ c.majorVersion.toNat ∧ c.majorVersion.toNat ≤ maxMajorVersion :=
      h.version
    rw [if_pos hmajor]
    exact reads_pure ()
  have hpool := ConstantPool.reads_encode h.constants
  exact hmagic.bind (hversion.bind (hpool.bind (reads_encodeBody h hname)))

end CompiledClass

/-- The scan of a well-formed class finds its name in dotted form and exactly its mentions of types,
with repetitions and in order. -/
theorem scan_encode (c : CompiledClass) (h : c.WellFormed) :
    ∃ name, c.pool.className? c.thisClass.toNat = some name ∧
      scan c.encode = .ok ⟨ClassName.ofInternal name, c.uses⟩ := by
  obtain ⟨name, hname⟩ := Option.isSome_iff_exists.1 h.thisClass
  refine ⟨name, hname, ?_⟩
  have hread := CompiledClass.reads_encode h hname 0 [] 0
  rw [List.append_nil] at hread
  change (decode ⟨c.encode, 0, 0⟩).map Prod.fst = _
  rw [hread]
  rfl

/-! ### A class with each kind of attribute holder -/

/-- The units of a text in which each character is one unit. -/
def unitsOf (text : String) : List UInt16 :=
  text.toList.map fun c => UInt16.ofNat c.toNat

/-- A class without members. -/
def CompiledClass.extending (name superclass : String) : CompiledClass where
  minorVersion := 0
  majorVersion := 61
  constants := [.utf8 (unitsOf name), .classInfo 1, .utf8 (unitsOf superclass), .classInfo 3]
  flags := 0x21
  thisClass := 2
  superclass := 4
  interfaces := []
  fields := []
  methods := []
  attributes := []

/-- Code with a load, a switch right behind it, a field access, a handler that catches everything
and a local variable that both tables list. -/
def sampleCode : Code where
  maxStack := 2
  maxLocals := 1
  instructions := [.wideLoad 0x14 1, .tableSwitch [] 5 (-1) 0 [9, 9], .member 0xB2 14]
  handlers := [⟨0, 4, 8, 0⟩]
  attributes :=
    [⟨15, .localVariables [⟨0, 4, 12, 11, 1⟩]⟩, ⟨16, .localVariableTypes [⟨0, 4, 12, 8, 1⟩]⟩]

/-- A class whose pool holds a constant of two slots and a text that is no Unicode text, which is
the name of an attribute. -/
def sampleClass : CompiledClass where
  minorVersion := 0
  majorVersion := 61
  constants := [
    .long 7, -- 1 and 2
    .utf8 (unitsOf "p/Q"), .classInfo 3, .utf8 (unitsOf "p/R$1"), .classInfo 5, -- 3 to 6
    .utf8 (unitsOf "Signature"), .utf8 (unitsOf "TT;"), -- 7 and 8
    .utf8 (unitsOf "ConstantValue"), .utf8 (unitsOf "Code"), -- 9 and 10
    .utf8 (unitsOf "[Lp/S;"), .utf8 (unitsOf "x"), -- 11 and 12
    .nameAndType 12 11, .fieldRef 6 13, -- 13 and 14
    .utf8 (unitsOf "LocalVariableTable"), .utf8 (unitsOf "LocalVariableTypeTable"), -- 15 and 16
    .utf8 (unitsOf "RuntimeVisibleAnnotations"), .utf8 [0xD800, 0] ] -- 17 and 18
  flags := 0x21
  thisClass := 4
  superclass := 0
  interfaces := [6]
  fields := [⟨0, 12, ⟨11, [⟨9, .own (.constantValue 6)⟩, ⟨7, .signature 8⟩]⟩⟩]
  methods := [⟨0, 12, ⟨11, [⟨10, .own (.code sampleCode)⟩]⟩⟩]
  attributes := [
    ⟨18, .common (.unknown [1, 2, 3])⟩,
    ⟨17, .common (.annotations [⟨11, [(12, .array [.nested 8 [], .classLiteral 3])]⟩])⟩]

lemma sampleCode_wellFormed : sampleCode.WellFormed sampleClass.pool where
  size := by decide
  instructions := ⟨⟨by decide, trivial⟩, ⟨rfl, by decide, rfl⟩, ⟨by decide, rfl⟩, trivial⟩
  handlerCount := by decide
  handlers := by simp [sampleCode, ConstantPool.HasClassOrNone]
  attributes := by
    refine ⟨by decide, ?_⟩
    have hentry : ∀ type, sampleClass.pool.HasText type →
        LocalEntry.WellFormed sampleClass.pool ⟨0, 4, 12, type, 1⟩ := fun _ h => ⟨rfl, h⟩
    simp only [sampleCode, List.forall_mem_cons]
    refine ⟨⟨by decide, "LocalVariableTable", rfl, rfl, by decide, ?_⟩,
      ⟨by decide, "LocalVariableTypeTable", rfl, rfl, by decide, ?_⟩, by simp⟩
    · simpa using hentry 11 rfl
    · simpa using hentry 8 rfl

lemma sampleClass_wellFormed : sampleClass.WellFormed where
  version := by decide
  constants := ⟨by decide, by simp [sampleClass, PoolEntry.Fits]; decide⟩
  thisClass := rfl
  superclass := .inl rfl
  interfaceCount := by decide
  interfaces := by
    have hinterface : sampleClass.pool.HasClass 6 := rfl
    simpa [sampleClass] using hinterface
  fieldCount := by decide
  fields := by
    have hfield : Field.WellFormed sampleClass.pool
        ⟨0, 12, ⟨11, [⟨9, .own (.constantValue 6)⟩, ⟨7, .signature 8⟩]⟩⟩ := by
      refine ⟨rfl, by decide, ?_⟩
      simp only [List.forall_mem_cons]
      exact ⟨⟨by decide, "ConstantValue", rfl, by decide, rfl, rfl⟩,
        ⟨by decide, "Signature", rfl, rfl, rfl⟩, by simp⟩
    simpa [sampleClass] using hfield
  methodCount := by decide
  methods := by
    have hmethod : Method.WellFormed sampleClass.pool
        ⟨0, 12, ⟨11, [⟨10, .own (.code sampleCode)⟩]⟩⟩ := by
      refine ⟨rfl, by decide, ?_⟩
      simp only [List.forall_mem_cons]
      exact ⟨⟨by decide, "Code", rfl, by decide, rfl, sampleCode_wellFormed⟩, by simp⟩
    simpa [sampleClass] using hmethod
  attributes := by
    refine ⟨by decide, ?_⟩
    have hcontent : AnnotationItem.WellFormed sampleClass.pool
        ⟨11, [(12, .array [.nested 8 [], .classLiteral 3])]⟩ := by
      refine ⟨rfl, by decide, ?_⟩
      simp only [List.forall_mem_cons]
      exact ⟨⟨by decide, ⟨rfl, by decide, trivial⟩, rfl, trivial⟩, by simp⟩
    have hname : ∃ name, sampleClass.pool.text? 18 = some name ∧ name ≠ "Signature" ∧
        name ≠ "Record" ∧ name ∉ CommonBody.annotationNames ∧
        name ∉ CommonBody.typeAnnotationNames :=
      ⟨_, rfl, by decide, by decide, by decide, by decide⟩
    have hfirst : Attribute.WellFormed sampleClass.pool ClassBody.encode
        (ClassBody.WellFormed sampleClass.pool) ⟨18, .common (.unknown [1, 2, 3])⟩ :=
      ⟨by decide, hname⟩
    refine List.forall_mem_cons.2 ⟨hfirst, List.forall_mem_cons.2 ⟨?_, by simp⟩⟩
    refine ⟨by decide, "RuntimeVisibleAnnotations", rfl, by decide, by decide, by decide,
      by decide, ?_⟩
    exact List.forall_mem_cons.2 ⟨hcontent, by simp⟩

theorem scan_encode_sampleClass :
    sampleClass.WellFormed ∧
      scan sampleClass.encode = .ok ⟨.ofInternal "p/Q", sampleClass.uses⟩ := by
  obtain ⟨name, hname, hscan⟩ := scan_encode sampleClass sampleClass_wellFormed
  obtain rfl : "p/Q" = name := Option.some.inj hname
  exact ⟨sampleClass_wellFormed, hscan⟩

end ClassFile
end ClasspathAudit
