import ClasspathAudit.ClassFile.Annotations
import ClasspathAudit.Proofs.ClassFile.PoolFormat

/-
# The written form of annotations

The values in annotations nest to any depth. For each part of an annotation there are its written
form, the conditions under which counts fit their fields and indices lead where they have to, and
the mentions of types in it.
-/
namespace ClasspathAudit
namespace ClassFile

open Decoder

/-! ### Values of members -/

/-- The kinds of values that are numbers or texts. -/
inductive ConstantKind
  | byte
  | char
  | double
  | float
  | int
  | long
  | short
  | boolean
  | string
deriving DecidableEq

/-- The letter that stands for a kind. -/
def ConstantKind.letter : ConstantKind → Char
  | byte => 'B'
  | char => 'C'
  | double => 'D'
  | float => 'F'
  | int => 'I'
  | long => 'J'
  | short => 'S'
  | boolean => 'Z'
  | string => 's'

/-- The value of a member of an annotation. -/
inductive ElementValue
  /-- A number or a text. -/
  | constant (kind : ConstantKind) (index : Index)
  /-- A constant of an enum type. -/
  | enumConstant (type name : Index)
  /-- A class. -/
  | classLiteral (type : Index)
  /-- An annotation in the annotation, with the names and values of its members. -/
  | nested (type : Index) (members : List (Index × ElementValue))
  /-- Several values. -/
  | array (values : List ElementValue)

namespace ElementValue

/-- The letter before a value, which tells its kind. -/
def letter : ElementValue → Char
  | constant kind _ => kind.letter
  | enumConstant .. => 'e'
  | classLiteral .. => 'c'
  | nested .. => '@'
  | array .. => '['

mutual

/-- The written form of a value behind its letter. -/
def body : ElementValue → Bytes
  | constant _ index => twoBytes index.toNat
  | enumConstant type name => twoBytes type.toNat ++ twoBytes name.toNat
  | classLiteral type => twoBytes type.toNat
  | nested type members =>
    twoBytes type.toNat ++ (twoBytes members.length ++ encodeMembers members)
  | array values => twoBytes values.length ++ encodeValues values

/-- The written form of members. -/
def encodeMembers : List (Index × ElementValue) → Bytes
  | [] => []
  | (name, value) :: rest =>
    twoBytes name.toNat ++ UInt8.ofNat value.letter.toNat :: body value ++ encodeMembers rest

/-- The written form of values. -/
def encodeValues : List ElementValue → Bytes
  | [] => []
  | value :: rest => UInt8.ofNat value.letter.toNat :: body value ++ encodeValues rest

end

/-- The written form of a value. -/
def encode (v : ElementValue) : Bytes :=
  UInt8.ofNat v.letter.toNat :: v.body

mutual

/-- Whether counts fit and types are texts. -/
def WellFormed (pool : ConstantPool) : ElementValue → Prop
  | constant .. => True
  | enumConstant type _ | classLiteral type => pool.HasText type
  | nested type members =>
    pool.HasText type ∧ members.length < 2 ^ 16 ∧ WellFormedMembers pool members
  | array values => values.length < 2 ^ 16 ∧ WellFormedValues pool values

/-- Whether members are well-formed. -/
def WellFormedMembers (pool : ConstantPool) : List (Index × ElementValue) → Prop
  | [] => True
  | (_, value) :: rest => WellFormed pool value ∧ WellFormedMembers pool rest

/-- Whether values are well-formed. -/
def WellFormedValues (pool : ConstantPool) : List ElementValue → Prop
  | [] => True
  | value :: rest => WellFormed pool value ∧ WellFormedValues pool rest

end

mutual

/-- The types that a value mentions; the class literal of no type at all mentions none. -/
def uses (pool : ConstantPool) : ElementValue → List TypeUse
  | constant .. => []
  | enumConstant type _ => pool.signatureUse .annotationValue type
  | classLiteral type =>
    if pool.text? type.toNat = some "V" then [] else pool.signatureUse .annotationValue type
  | nested type members =>
    pool.signatureUse .annotationType type ++ usesOfMembers pool members
  | array values => usesOfValues pool values

/-- The types that members mention. -/
def usesOfMembers (pool : ConstantPool) : List (Index × ElementValue) → List TypeUse
  | [] => []
  | (_, value) :: rest => uses pool value ++ usesOfMembers pool rest

/-- The types that values mention. -/
def usesOfValues (pool : ConstantPool) : List ElementValue → List TypeUse
  | [] => []
  | value :: rest => uses pool value ++ usesOfValues pool rest

end

/-! ### Lists of values -/

variable {pool : ConstantPool}

lemma encodeMembers_eq (members : List (Index × ElementValue)) :
    encodeMembers members = members.flatMap fun m => twoBytes m.1.toNat ++ m.2.encode := by
  induction members with
  | nil => rfl
  | cons m members ih =>
    rw [encodeMembers, ih, List.flatMap_cons]
    rfl

lemma encodeValues_eq (values : List ElementValue) :
    encodeValues values = values.flatMap encode := by
  induction values with
  | nil => rfl
  | cons v values ih =>
    rw [encodeValues, ih, List.flatMap_cons]
    rfl

lemma usesOfMembers_eq (members : List (Index × ElementValue)) :
    usesOfMembers pool members = members.flatMap fun m => m.2.uses pool := by
  induction members with
  | nil => rfl
  | cons m members ih => rw [usesOfMembers, ih, List.flatMap_cons]

lemma usesOfValues_eq (values : List ElementValue) :
    usesOfValues pool values = values.flatMap (uses pool) := by
  induction values with
  | nil => rfl
  | cons v values ih => rw [usesOfValues, ih, List.flatMap_cons]

lemma wellFormedMembers_iff {members : List (Index × ElementValue)} :
    WellFormedMembers pool members ↔ ∀ m ∈ members, m.2.WellFormed pool := by
  induction members with
  | nil => simp [WellFormedMembers]
  | cons m members ih => simp [WellFormedMembers, ih]

lemma wellFormedValues_iff {values : List ElementValue} :
    WellFormedValues pool values ↔ ∀ v ∈ values, v.WellFormed pool := by
  induction values with
  | nil => simp [WellFormedValues]
  | cons v values ih => simp [WellFormedValues, ih]

/-- What holds of a value if it holds of all values in it holds of every value. -/
lemma induct {motive : ElementValue → Prop}
    (constant : ∀ kind index, motive (constant kind index))
    (enumConstant : ∀ type name, motive (enumConstant type name))
    (classLiteral : ∀ type, motive (classLiteral type))
    (nested : ∀ type members, (∀ m ∈ members, motive m.2) → motive (nested type members))
    (array : ∀ values, (∀ v ∈ values, motive v) → motive (array values)) :
    ∀ v, motive v :=
  @ElementValue.rec motive (fun members => ∀ m ∈ members, motive m.2)
    (fun values => ∀ v ∈ values, motive v) (fun m => motive m.2)
    constant enumConstant classLiteral nested array
    (by simp) (fun _ _ hm hrest => List.forall_mem_cons.2 ⟨hm, hrest⟩)
    (by simp) (fun _ _ hv hrest => List.forall_mem_cons.2 ⟨hv, hrest⟩)
    (fun _ _ hv => hv)

/-! ### Reading values -/

/-- The length of a value bounds the lengths of the values in it, so a budget that is enough for it
is enough for them. -/
lemma length_encode (v : ElementValue) : v.encode.length = v.body.length + 1 := by
  simp [encode]

lemma length_le_encodeMembers {members : List (Index × ElementValue)} {m : Index × ElementValue}
    (h : m ∈ members) : m.2.encode.length ≤ (encodeMembers members).length := by
  rw [encodeMembers_eq]
  obtain ⟨front, back, rfl⟩ := List.append_of_mem h
  simp only [List.flatMap_append, List.flatMap_cons, List.length_append]
  omega

lemma length_le_encodeValues {values : List ElementValue} {v : ElementValue} (h : v ∈ values) :
    v.encode.length ≤ (encodeValues values).length := by
  rw [encodeValues_eq]
  obtain ⟨front, back, rfl⟩ := List.append_of_mem h
  simp only [List.flatMap_append, List.flatMap_cons, List.length_append]
  omega

end ElementValue

/-! ### Annotations -/

/-- An annotation. -/
structure AnnotationItem where
  /-- The type of the annotation. -/
  type : Index
  /-- The names and values of its members. -/
  members : List (Index × ElementValue)

namespace AnnotationItem

/-- The written form of an annotation. -/
def encode (a : AnnotationItem) : Bytes :=
  twoBytes a.type.toNat ++ table (fun m => twoBytes m.1.toNat ++ m.2.encode) a.members

/-- Whether counts fit and types are texts. -/
structure WellFormed (pool : ConstantPool) (a : AnnotationItem) : Prop where
  type : pool.HasText a.type
  count : a.members.length < 2 ^ 16
  members : ∀ m ∈ a.members, m.2.WellFormed pool

/-- The types that an annotation mentions. -/
def uses (pool : ConstantPool) (a : AnnotationItem) : List TypeUse :=
  pool.signatureUse .annotationType a.type ++ a.members.flatMap fun m => m.2.uses pool

end AnnotationItem

namespace Annotations

variable {pool : ConstantPool}

lemma reads_decodeWith {d : Decoder (List TypeUse)} {a : AnnotationItem} (h : a.WellFormed pool)
    (hd : ∀ m ∈ a.members, Reads d m.2.encode (m.2.uses pool)) :
    Reads (decodeWith pool d) a.encode (a.uses pool) := by
  obtain ⟨text, -, hread, huse⟩ := h.type.reads
  rw [AnnotationItem.uses, huse]
  refine hread.bind (Reads.map (f := fun values => _ :: values) (reads_counted h.count ?_))
  intro m hm
  exact (reads_skip (length_twoBytes _)).bind (hd m hm)

lemma reads_of_length_le {v : ElementValue} {budget : Nat}
    (h : ∀ n, v.body.length ≤ n → Reads (decodeValue pool (n + 1)) v.encode (v.uses pool))
    (hle : v.encode.length ≤ budget) : Reads (decodeValue pool budget) v.encode (v.uses pool) := by
  cases budget with
  | zero => simp [ElementValue.length_encode] at hle
  | succ n => exact h n (by simpa [ElementValue.length_encode] using hle)

/-- The letter is read; what is left is to read the body as the letter asks. -/
lemma reads_letter {v : ElementValue} {n : Nat}
    {f : Nat → Nat → Decoder (List TypeUse)}
    (hf : decodeValue pool (n + 1) = (do let o ← offset; let tag ← u1; f o tag))
    (h : ∀ o, Reads (f o (UInt8.ofNat v.letter.toNat).toNat) v.body (v.uses pool)) :
    Reads (decodeValue pool (n + 1)) v.encode (v.uses pool) := by
  rw [hf]
  exact Reads.offset fun o => (reads_u1 _).bind (h o)

lemma reads_decodeValue (v : ElementValue) (h : v.WellFormed pool) :
    ∀ n, v.body.length ≤ n → Reads (decodeValue pool (n + 1)) v.encode (v.uses pool) := by
  induction v using ElementValue.induct with
  | constant kind index =>
    intro n _
    refine reads_letter rfl fun o => ?_
    cases kind <;> exact reads_skipReturn (length_twoBytes _) _
  | enumConstant type name =>
    intro n _
    refine reads_letter rfl fun o => ?_
    obtain ⟨text, -, hread, huse⟩ := ConstantPool.HasText.reads h
    rw [ElementValue.uses, huse]
    exact hread.bind (reads_skipReturn (length_twoBytes _) _)
  | classLiteral type =>
    intro n _
    refine reads_letter rfl fun o => ?_
    obtain ⟨text, htext, hread, huse⟩ := ConstantPool.HasText.reads h
    refine hread.bindNil ?_
    simp only [ElementValue.uses, htext, huse, Option.some.injEq]
    exact reads_pure _
  | nested type members ih =>
    intro n hn
    obtain ⟨htype, hlt, hmembers⟩ := h
    have hwf := ElementValue.wellFormedMembers_iff.1 hmembers
    have hbody :
        (ElementValue.nested type members).body = (AnnotationItem.mk type members).encode := by
      rw [ElementValue.body, ElementValue.encodeMembers_eq, AnnotationItem.encode, table]
    have huses : (ElementValue.nested type members).uses pool =
        (AnnotationItem.mk type members).uses pool := by
      rw [ElementValue.uses, ElementValue.usesOfMembers_eq, AnnotationItem.uses]
    refine reads_letter rfl fun o => ?_
    rw [hbody, huses]
    -- a member is shorter than the value, so what is left of the budget is enough for it
    refine reads_decodeWith ⟨htype, hlt, hwf⟩ fun m hm => reads_of_length_le (ih m hm (hwf m hm)) ?_
    have hle : m.2.encode.length ≤ (ElementValue.encodeMembers members).length :=
      ElementValue.length_le_encodeMembers hm
    simp [ElementValue.body] at hn
    omega
  | array values ih =>
    intro n hn
    obtain ⟨hlt, hvalues⟩ := h
    refine reads_letter rfl fun o => ?_
    have hbody : (ElementValue.array values).body = table ElementValue.encode values := by
      rw [ElementValue.body, ElementValue.encodeValues_eq, table]
    rw [hbody, ElementValue.uses, ElementValue.usesOfValues_eq]
    refine reads_counted hlt fun v hv => ?_
    have hle := ElementValue.length_le_encodeValues hv
    have hwf := ElementValue.wellFormedValues_iff.1 hvalues v hv
    refine reads_of_length_le (ih v hv hwf) ?_
    simp [ElementValue.body] at hn
    omega

/-- The budget of a value is what the window has left, which the value fits into. -/
lemma reads_value {v : ElementValue} (h : v.WellFormed pool) :
    Reads (value pool) v.encode (v.uses pool) := by
  intro position rest base
  have hle : v.encode.length ≤ (v.encode ++ rest).length := by simp
  exact reads_of_length_le (reads_decodeValue v h) hle position rest base

lemma reads_decode {a : AnnotationItem} (h : a.WellFormed pool) :
    Reads (decode pool) a.encode (a.uses pool) :=
  reads_decodeWith h fun m hm => reads_value (h.members m hm)

lemma reads_list {annotations : List AnnotationItem} (hlt : annotations.length < 2 ^ 16)
    (h : ∀ a ∈ annotations, a.WellFormed pool) :
    Reads (list pool) (table AnnotationItem.encode annotations)
      (annotations.flatMap (AnnotationItem.uses pool)) :=
  reads_counted hlt fun a ha => reads_decode (h a ha)

end Annotations

/-! ### Type annotations -/

/-- The place that a type annotation is attached to. -/
inductive AnnotationPlace
  /-- A type parameter of a class or method. -/
  | typeParameter (index : UInt8)
  /-- The superclass or an interface. -/
  | supertype (index : UInt16)
  /-- A bound of a type parameter. -/
  | bound (parameter number : UInt8)
  /-- The type of a field, the result or the receiver of a method. -/
  | whole
  /-- A parameter of a method. -/
  | formalParameter (index : UInt8)
  /-- A thrown type. -/
  | thrown (index : UInt16)
  /-- A local variable, with start, length and index for each of its ranges. -/
  | localVariable (ranges : List (UInt16 × UInt16 × UInt16))
  /-- A caught type. -/
  | caught (index : UInt16)
  /-- An expression at an instruction. -/
  | expression (offset : UInt16)
  /-- A cast or a type argument at an instruction. -/
  | typeArgument (offset : UInt16) (index : UInt8)

namespace AnnotationPlace

/-- The numbers of the kinds of places that are described so. -/
def kinds : AnnotationPlace → List UInt8
  | typeParameter .. => [0x00, 0x01]
  | supertype .. => [0x10]
  | bound .. => [0x11, 0x12]
  | whole => [0x13, 0x14, 0x15]
  | formalParameter .. => [0x16]
  | thrown .. => [0x17]
  | localVariable .. => [0x40, 0x41]
  | caught .. => [0x42]
  | expression .. => [0x43, 0x44, 0x45, 0x46]
  | typeArgument .. => [0x47, 0x48, 0x49, 0x4A, 0x4B]

/-- A range of a local variable in bytes. -/
def encodeRange (range : UInt16 × UInt16 × UInt16) : Bytes :=
  twoBytes range.1.toNat ++ twoBytes range.2.1.toNat ++ twoBytes range.2.2.toNat

/-- The written form of a place. -/
def encode : AnnotationPlace → Bytes
  | typeParameter index | formalParameter index => [index]
  | supertype index | thrown index | caught index | expression index => twoBytes index.toNat
  | bound parameter number => [parameter, number]
  | whole => []
  | localVariable ranges => table encodeRange ranges
  | typeArgument offset index => twoBytes offset.toNat ++ [index]

/-- The number of ranges has to fit its field. -/
def Fits : AnnotationPlace → Prop
  | localVariable ranges => ranges.length < 2 ^ 16
  | _ => True

lemma length_ranges (ranges : List (UInt16 × UInt16 × UInt16)) :
    (ranges.flatMap encodeRange).length = ranges.length * 6 :=
  length_flatMap_of_forall 6 (fun range => by simp [encodeRange]) ranges

/-- The kind tells how many bytes describe the place. -/
lemma reads_skipTarget {kind : UInt8} {place : AnnotationPlace} (hkind : kind ∈ place.kinds)
    (h : place.Fits) : Reads Annotations.skipTarget (kind :: place.encode) () := by
  refine Reads.offset fun start => (reads_u1 kind).bind ?_
  cases place with
  | localVariable ranges =>
    have hranges := (reads_u2 h).bind (f := fun n => skip (n * 6))
      (reads_skip (length_ranges ranges))
    simp only [kinds, List.mem_cons, List.not_mem_nil, or_false] at hkind
    rcases hkind with rfl | rfl <;> exact hranges
  | _ =>
    simp only [kinds, List.mem_cons, List.not_mem_nil, or_false] at hkind
    rcases hkind with rfl | rfl | rfl | rfl | rfl <;> exact reads_skip rfl

end AnnotationPlace

/-- An annotation of a type. -/
structure TypeAnnotationItem where
  /-- The number of the kind of place. -/
  kind : UInt8
  /-- The place that the annotation is attached to. -/
  place : AnnotationPlace
  /-- The steps from there to the part of the type that is annotated. -/
  path : List (UInt8 × UInt8)
  /-- The annotation. -/
  content : AnnotationItem

namespace TypeAnnotationItem

/-- The written form of the steps to a part of a type. -/
def encodePath (path : List (UInt8 × UInt8)) : Bytes :=
  path.flatMap fun step => [step.1, step.2]

/-- The written form of an annotation of a type. -/
def encode (t : TypeAnnotationItem) : Bytes :=
  t.kind :: t.place.encode ++
    (UInt8.ofNat t.path.length :: encodePath t.path ++ t.content.encode)

/-- Whether the place is of the kind told, counts fit and types are texts. -/
structure WellFormed (pool : ConstantPool) (t : TypeAnnotationItem) : Prop where
  kind : t.kind ∈ t.place.kinds
  place : t.place.Fits
  path : t.path.length < 2 ^ 8
  content : t.content.WellFormed pool

/-- The types that an annotation of a type mentions. -/
def uses (pool : ConstantPool) (t : TypeAnnotationItem) : List TypeUse :=
  t.content.uses pool

lemma length_encodePath (path : List (UInt8 × UInt8)) :
    (encodePath path).length = path.length * 2 :=
  length_flatMap_of_forall 2 (fun _ => by simp) path

end TypeAnnotationItem

namespace Annotations

variable {pool : ConstantPool}

lemma reads_typeList {annotations : List TypeAnnotationItem} (hlt : annotations.length < 2 ^ 16)
    (h : ∀ t ∈ annotations, t.WellFormed pool) :
    Reads (typeList pool) (table TypeAnnotationItem.encode annotations)
      (annotations.flatMap (TypeAnnotationItem.uses pool)) := by
  refine reads_counted hlt fun t ht => ?_
  obtain ⟨hkind, hplace, hpath, hcontent⟩ := h t ht
  have hsteps : (TypeAnnotationItem.encodePath t.path).length =
      (UInt8.ofNat t.path.length).toNat * 2 := by
    rw [TypeAnnotationItem.length_encodePath, UInt8.toNat_ofNat', Nat.mod_eq_of_lt hpath]
  exact (AnnotationPlace.reads_skipTarget hkind hplace).bind
    ((reads_u1 _).bind ((reads_skip hsteps).bind (reads_decode hcontent)))

end Annotations

/-! ### Attributes that may stand anywhere -/

/-- The body of an attribute that may stand on any structure of a class file. -/
inductive CommonBody
  /-- Annotations, at run time visible or not. -/
  | annotations (items : List AnnotationItem)
  /-- Annotations of types, at run time visible or not. -/
  | typeAnnotations (items : List TypeAnnotationItem)
  /-- What an attribute with another name holds. -/
  | unknown (bytes : Bytes)

namespace CommonBody

/-- The names of attributes that hold annotations. -/
def annotationNames : List String :=
  ["RuntimeVisibleAnnotations", "RuntimeInvisibleAnnotations"]

/-- The names of attributes that hold annotations of types. -/
def typeAnnotationNames : List String :=
  ["RuntimeVisibleTypeAnnotations", "RuntimeInvisibleTypeAnnotations"]

/-- The written form of a body. -/
def encode : CommonBody → Bytes
  | annotations items => table AnnotationItem.encode items
  | typeAnnotations items => table TypeAnnotationItem.encode items
  | unknown bytes => bytes

/-- Whether a body is what an attribute called `name` holds, counts fit and types are texts. -/
def WellFormed (pool : ConstantPool) (name : String) : CommonBody → Prop
  | annotations items =>
    name ∈ annotationNames ∧ items.length < 2 ^ 16 ∧ ∀ a ∈ items, a.WellFormed pool
  | typeAnnotations items =>
    name ∈ typeAnnotationNames ∧ items.length < 2 ^ 16 ∧ ∀ t ∈ items, t.WellFormed pool
  | unknown _ => name ∉ annotationNames ∧ name ∉ typeAnnotationNames

/-- The types that a body mentions. -/
def uses (pool : ConstantPool) : CommonBody → List TypeUse
  | annotations items => items.flatMap (AnnotationItem.uses pool)
  | typeAnnotations items => items.flatMap (TypeAnnotationItem.uses pool)
  | unknown _ => []

lemma finds_ofAttribute {pool : ConstantPool} {name : String} {b : CommonBody}
    (h : b.WellFormed pool name) :
    Finds (Annotations.ofAttribute pool name) b.encode (b.uses pool) := by
  cases b with
  | annotations items =>
    obtain ⟨hname, hlt, hitems⟩ := h
    have hread := Annotations.reads_list hlt hitems
    simp only [annotationNames, List.mem_cons, List.not_mem_nil, or_false] at hname
    rw [Annotations.ofAttribute, if_pos hname]
    exact hread.finds
  | typeAnnotations items =>
    obtain ⟨hname, hlt, hitems⟩ := h
    have hread := Annotations.reads_typeList hlt hitems
    simp only [typeAnnotationNames, List.mem_cons, List.not_mem_nil, or_false] at hname
    rw [Annotations.ofAttribute, if_neg, if_pos hname]
    · exact hread.finds
    · rcases hname with rfl | rfl <;> decide
  | unknown bytes =>
    obtain ⟨hname, hname'⟩ := h
    simp only [annotationNames, typeAnnotationNames, List.mem_cons, List.not_mem_nil, or_false]
      at hname hname'
    rw [Annotations.ofAttribute, if_neg hname, if_neg hname']
    exact finds_pure bytes []

end CommonBody
end ClassFile
end ClasspathAudit
