import ClasspathAudit.ClassFile.Member
import ClasspathAudit.Proofs.ClassFile.AnnotationFormat
import ClasspathAudit.Proofs.ClassFile.InstructionFormat

/-
# The written form of attributes, fields, methods and record components

An attribute is written as the index of its name, the length of its body and the body. What the body
holds follows from the name and from the structure that the attribute stands on, so there is one
type of bodies for each structure; attributes come in any order and any number. A body whose name
means nothing on the structure may hold any bytes.
-/
namespace ClasspathAudit
namespace ClassFile

open Decoder

/-! ### Attributes -/

/-- An attribute with a body of a given type. -/
structure Attribute (α : Type) where
  /-- The index of its name. -/
  name : Index
  /-- Its body. -/
  body : α

namespace Attribute

variable {α β : Type} {pool : ConstantPool}

/-- The written form of an attribute whose body `write` writes. -/
def encode (write : α → Bytes) (a : Attribute α) : Bytes :=
  let bytes := write a.body
  twoBytes a.name.toNat ++ (fourBytes bytes.length ++ bytes)

/-- Whether the body is what an attribute with this name holds, as `fits` tells, and its length fits
its field. -/
def WellFormed (pool : ConstantPool) (write : α → Bytes) (fits : String → α → Prop)
    (a : Attribute α) : Prop :=
  (write a.body).length < 2 ^ 32 ∧ ∃ name, pool.text? a.name.toNat = some name ∧ fits name a.body

/-- Whether the number of attributes fits its field, and all of them are well-formed. -/
structure ListWellFormed (pool : ConstantPool) (write : α → Bytes) (fits : String → α → Prop)
    (attributes : List (Attribute α)) : Prop where
  count : attributes.length < 2 ^ 16
  each : ∀ a ∈ attributes, a.WellFormed pool write fits

lemma reads_decodeAttributes {write : α → Bytes} {fits : String → α → Prop} {found : α → List β}
    {body : String → Decoder (List β)} {attributes : List (Attribute α)}
    (h : ListWellFormed pool write fits attributes)
    (hbody : ∀ name b, fits name b → Finds (body name) (write b) (found b)) :
    Reads (decodeAttributes pool body) (table (encode write) attributes)
      (attributes.flatMap fun a => found a.body) := by
  refine reads_counted h.count fun a ha => ?_
  obtain ⟨hlt, name, hname, hfits⟩ := h.each a ha
  have hread : Reads pool.readUtf8 (twoBytes a.name.toNat) name :=
    ConstantPool.reads_readIndex fun _ => ConstantPool.utf8_eq_ok hname
  exact hread.bind ((hbody name a.body hfits).prefixed hlt)

end Attribute

/-! ### Descriptors and generic forms -/

/-- The body of an attribute of a structure that has a type. -/
inductive TypedBody (α : Type)
  /-- The generic form of the type. -/
  | signature (text : Index)
  /-- What other attributes of the structure hold. -/
  | own (body : α)

/-- The type of a structure and its attributes. -/
structure Typed (α : Type) where
  /-- The descriptor of the type. -/
  descriptor : Index
  /-- The attributes. -/
  attributes : List (Attribute (TypedBody α))

namespace TypedBody

variable {α : Type} {pool : ConstantPool}

/-- The written form of a body. -/
def encode (write : α → Bytes) : TypedBody α → Bytes
  | signature text => twoBytes text.toNat
  | own body => write body

/-- Whether a body is what an attribute called `name` holds. -/
def WellFormed (pool : ConstantPool) (fits : String → α → Prop) (name : String) :
    TypedBody α → Prop
  | signature text => name = "Signature" ∧ pool.HasText text
  | own body => name ≠ "Signature" ∧ fits name body

/-- The types that a body mentions, apart from the type of the structure. -/
def uses (own' : α → List TypeUse) : TypedBody α → List TypeUse
  | signature _ => []
  | own body => own' body

/-- The generic form of the type that a body holds. -/
def signature? : TypedBody α → Option Index
  | signature text => some text
  | own _ => none

end TypedBody

namespace Typed

variable {α : Type} {pool : ConstantPool}

/-- The written form of the type and the attributes. -/
def encode (write : α → Bytes) (t : Typed α) : Bytes :=
  twoBytes t.descriptor.toNat ++ table (Attribute.encode (TypedBody.encode write)) t.attributes

/-- Whether the descriptor is a text and the attributes are well-formed. -/
structure WellFormed (pool : ConstantPool) (write : α → Bytes) (fits : String → α → Prop)
    (t : Typed α) : Prop where
  descriptor : pool.HasText t.descriptor
  attributes : Attribute.ListWellFormed pool (TypedBody.encode write)
    (TypedBody.WellFormed pool fits) t.attributes

/-- The index of the type: the last generic form that an attribute holds, or else the descriptor. -/
def typeIndex (t : Typed α) : Index :=
  (t.attributes.filterMap fun a => a.body.signature?).getLast?.getD t.descriptor

/-- The types mentioned: those that attributes mention, then the type itself. -/
def uses (pool : ConstantPool) (kind : ReferenceKind) (own : α → List TypeUse) (t : Typed α) :
    List TypeUse :=
  t.attributes.flatMap (fun a => a.body.uses own) ++ pool.signatureUse kind t.typeIndex

/-! ### Reading types with attributes -/

/-- What the reader notes down of a body. -/
def detailsOf (pool : ConstantPool) (own : α → List TypeUse) : TypedBody α → List MemberDetail
  | .signature text => (pool.text? text.toNat).toList.map .signature
  | .own body => (own body).map .mention

lemma mentions_append (l l' : List MemberDetail) :
    MemberDetail.mentions (l ++ l') = MemberDetail.mentions l ++ MemberDetail.mentions l' := by
  simp [MemberDetail.mentions]

lemma mentions_map_mention (uses : List TypeUse) :
    MemberDetail.mentions (uses.map .mention) = uses := by
  rw [MemberDetail.mentions, List.filterMap_map]
  exact List.filterMap_some

lemma mentions_detailsOf (own : α → List TypeUse) (b : TypedBody α) :
    MemberDetail.mentions (detailsOf pool own b) = b.uses own := by
  cases b with
  | signature text => cases h : pool.text? text.toNat <;> simp [detailsOf, h] <;> rfl
  | own body => exact mentions_map_mention (own body)

lemma typeText_map_mention (uses : List TypeUse) (text : String) :
    MemberDetail.typeText (uses.map .mention) text = text := by
  induction uses with
  | nil => rfl
  | cons _ _ ih => exact ih

variable (pool) in
lemma mentions_flatMap (own : α → List TypeUse) (attributes : List (Attribute (TypedBody α))) :
    MemberDetail.mentions (attributes.flatMap fun a => detailsOf pool own a.body) =
      attributes.flatMap fun a => a.body.uses own := by
  induction attributes with
  | nil => rfl
  | cons a attributes ih =>
    rw [List.flatMap_cons, mentions_append, mentions_detailsOf, ih, List.flatMap_cons]

/-- Each generic form replaces the type found so far, so that the last one stays. -/
lemma text?_typeIndex {fits : String → α → Prop} (own : α → List TypeUse)
    {attributes : List (Attribute (TypedBody α))} :
    ∀ {descriptor : Index} {text : String},
    (∀ a ∈ attributes, ∃ name, a.body.WellFormed pool fits name) →
    pool.text? descriptor.toNat = some text →
    pool.text? (typeIndex ⟨descriptor, attributes⟩).toNat =
      some (MemberDetail.typeText
        (attributes.flatMap fun a => detailsOf pool own a.body) text) := by
  induction attributes with
  | nil => exact fun _ h => h
  | cons a attributes ih =>
    intro descriptor text h hdescriptor
    obtain ⟨name, ha⟩ := h a (by simp)
    have hrest : ∀ x ∈ attributes, ∃ name, x.body.WellFormed pool fits name :=
      fun x hx => h x (by simp [hx])
    rw [List.flatMap_cons, MemberDetail.typeText, List.foldl_append]
    cases hbody : a.body with
    | signature index =>
      rw [hbody] at ha
      obtain ⟨generic, hgeneric⟩ := Option.isSome_iff_exists.1 ha.2
      -- a generic form takes the place of the type found so far, whatever that was
      have hindex : typeIndex ⟨descriptor, a :: attributes⟩ = typeIndex ⟨index, attributes⟩ := by
        simp [typeIndex, hbody, TypedBody.signature?, List.getLast?_cons]
      rw [hindex, ih hrest hgeneric]
      simp [detailsOf, hgeneric, MemberDetail.typeText]
    | own body =>
      have hindex :
          typeIndex ⟨descriptor, a :: attributes⟩ = typeIndex ⟨descriptor, attributes⟩ := by
        simp [typeIndex, hbody, TypedBody.signature?]
      have htext := typeText_map_mention (own body) text
      rw [MemberDetail.typeText] at htext
      rw [hindex, ih hrest hdescriptor, detailsOf, htext]
      rfl

lemma reads_typed {write : α → Bytes} {fits : String → α → Prop} {own : α → List TypeUse}
    {kind : ReferenceKind} {body : String → Decoder (List TypeUse)} {t : Typed α}
    (h : t.WellFormed pool write fits)
    (hbody : ∀ name b, fits name b → Finds (body name) (write b) (own b)) :
    Reads (do let descriptor ← pool.readUtf8; decodeDetails pool kind descriptor body)
      (t.encode write) (t.uses pool kind own) := by
  obtain ⟨text, htext, hread, -⟩ := h.descriptor.reads
  refine hread.bind ?_
  have hdetails : ∀ name b, TypedBody.WellFormed pool fits name b →
      Finds (if name = "Signature" then MemberDetail.ofSignature pool
        else MemberDetail.ofMentions (body name)) (b.encode write) (detailsOf pool own b) := by
    intro name b hb
    cases b with
    | signature index =>
      obtain ⟨rfl, hindex⟩ := hb
      obtain ⟨generic, hgeneric, hread, -⟩ := hindex.reads
      rw [if_pos rfl, detailsOf, hgeneric]
      exact (hread.map (f := fun text => [MemberDetail.signature text])).finds
    | own b =>
      rw [if_neg hb.1]
      exact (hbody name b hb.2).map
  have hattributes := Attribute.reads_decodeAttributes h.attributes hdetails
  have htype := text?_typeIndex own
    (fun a ha => (h.attributes.each a ha).2.imp fun _ hname => hname.2) htext
  have huse : pool.signatureUse kind t.typeIndex = [.signature kind (MemberDetail.typeText
      (t.attributes.flatMap fun a => detailsOf pool own a.body) text)] := by
    rw [ConstantPool.signatureUse, htype]
    rfl
  rw [uses, huse, ← mentions_flatMap pool]
  exact hattributes.map (f := fun details => MemberDetail.mentions details ++
    [.signature kind (MemberDetail.typeText details text)])

end Typed

/-! ### Record components -/

/-- A component of a record. -/
structure RecordComponent where
  /-- The index of its name. -/
  name : Index
  /-- Its type and its attributes. -/
  typed : Typed CommonBody

namespace RecordComponent

variable {pool : ConstantPool}

/-- The written form of a component. -/
def encode (c : RecordComponent) : Bytes :=
  twoBytes c.name.toNat ++ c.typed.encode CommonBody.encode

/-- Whether a component is well-formed. -/
def WellFormed (pool : ConstantPool) (c : RecordComponent) : Prop :=
  c.typed.WellFormed pool CommonBody.encode (CommonBody.WellFormed pool)

/-- The types that a component mentions. -/
def uses (pool : ConstantPool) (c : RecordComponent) : List TypeUse :=
  c.typed.uses pool .recordComponent (CommonBody.uses pool)

lemma reads_encode {c : RecordComponent} (h : c.WellFormed pool) :
    Reads (decodeRecordComponent pool) c.encode (c.uses pool) :=
  (reads_skip (length_twoBytes _)).bind
    (Typed.reads_typed h fun _ _ hb => CommonBody.finds_ofAttribute hb)

end RecordComponent

/-! ### Fields -/

/-- The body of an attribute of a field, generic forms apart. -/
inductive FieldBody
  /-- The constant that the field holds. -/
  | constantValue (index : Index)
  /-- What may stand on any structure. -/
  | common (body : CommonBody)

namespace FieldBody

variable {pool : ConstantPool}

/-- The written form of a body. -/
def encode : FieldBody → Bytes
  | constantValue index => twoBytes index.toNat
  | common body => body.encode

/-- Whether there is a constant at an index, and its name if it is a class. -/
def HasConstant (pool : ConstantPool) (i : Nat) : Prop :=
  match pool.slots[i]? with
  | none | some .unusable => False
  | some (.classInfo name) => (pool.text? name).isSome
  | some _ => True

/-- Whether a body is what an attribute called `name` holds. -/
def WellFormed (pool : ConstantPool) (name : String) : FieldBody → Prop
  | constantValue index => name = "ConstantValue" ∧ HasConstant pool index.toNat
  | common body => name ≠ "ConstantValue" ∧ body.WellFormed pool name

/-- The types that a body mentions: a constant mentions one if it is a class. -/
def uses (pool : ConstantPool) : FieldBody → List TypeUse
  | constantValue index => pool.nameUse .fieldConstant index
  | common body => body.uses pool

lemma fieldConstant_eq_ok {index : Index} {o : Nat} (h : HasConstant pool index.toNat) :
    fieldConstant pool index.toNat o = .ok (pool.nameUse .fieldConstant index) := by
  rw [HasConstant] at h
  split at h
  · exact h.elim
  · exact h.elim
  · rename_i name hslot
    obtain ⟨text, htext⟩ := Option.isSome_iff_exists.1 h
    have hclass : pool.className? index.toNat = some text := by
      rw [ConstantPool.className?, hslot]
      exact htext
    rw [fieldConstant, ConstantPool.get_eq_ok hslot (by simp), ConstantPool.nameUse, hclass]
    simp only [bind, Except.bind, ConstantPool.className_eq_ok hclass]
    rfl
  · rename_i constant hunusable hnoClass hslot
    have hclass : pool.className? index.toNat = none := by
      rw [ConstantPool.className?, hslot]
      cases constant <;> simp_all
    rw [fieldConstant, ConstantPool.get_eq_ok hslot (by simpa using hunusable),
      ConstantPool.nameUse, hclass]
    cases constant <;> simp_all <;> rfl

end FieldBody

/-- A field. -/
structure Field where
  /-- Its access flags. -/
  flags : UInt16
  /-- The index of its name. -/
  name : Index
  /-- Its type and its attributes. -/
  typed : Typed FieldBody

namespace Field

variable {pool : ConstantPool}

/-- The written form of a field. -/
def encode (f : Field) : Bytes :=
  twoBytes f.flags.toNat ++ twoBytes f.name.toNat ++ f.typed.encode FieldBody.encode

/-- Whether a field is well-formed. -/
def WellFormed (pool : ConstantPool) (f : Field) : Prop :=
  f.typed.WellFormed pool FieldBody.encode (FieldBody.WellFormed pool)

/-- The types that a field mentions. -/
def uses (pool : ConstantPool) (f : Field) : List TypeUse :=
  f.typed.uses pool .fieldType (FieldBody.uses pool)

lemma reads_encode {f : Field} (h : f.WellFormed pool) :
    Reads (decodeField pool) f.encode (f.uses pool) := by
  refine (reads_skip (by simp)).bind (Typed.reads_typed h fun name b hb => ?_)
  cases b with
  | constantValue index =>
    obtain ⟨rfl, hindex⟩ := hb
    rw [if_pos rfl]
    exact (ConstantPool.reads_readIndex fun _ => FieldBody.fieldConstant_eq_ok hindex).finds
  | common body =>
    rw [if_neg hb.1]
    exact CommonBody.finds_ofAttribute hb.2

end Field
end ClassFile
end ClasspathAudit
