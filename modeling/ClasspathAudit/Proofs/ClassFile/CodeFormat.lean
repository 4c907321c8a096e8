import ClasspathAudit.Proofs.ClassFile.MemberFormat

/-
# The written form of code and methods

The code of a method holds its instructions, its exception handlers and attributes of its own. The
two tables of local variables among these belong together: a variable that both describe is
mentioned once, by its generic type.
-/
namespace ClasspathAudit
namespace ClassFile

open Decoder

/-! ### Local variables -/

/-- An entry of a table of local variables. -/
structure LocalEntry where
  /-- Where in the code its scope starts. -/
  start : UInt16
  /-- The length of its scope. -/
  length : UInt16
  /-- The index of its name. -/
  name : Index
  /-- The index of its descriptor, or of its generic type. -/
  type : Index
  /-- Its place among the local variables. -/
  slot : UInt16

namespace LocalEntry

variable {pool : ConstantPool}

/-- The written form of an entry. -/
def encode (e : LocalEntry) : Bytes :=
  twoBytes e.start.toNat ++ (twoBytes e.length.toNat ++ (twoBytes e.name.toNat ++
    (twoBytes e.type.toNat ++ twoBytes e.slot.toNat)))

/-- Whether the name and the type are texts. -/
structure WellFormed (pool : ConstantPool) (e : LocalEntry) : Prop where
  name : pool.HasText e.name
  type : pool.HasText e.type

/-- Whether the name of a variable is one that the compiler gives. -/
def isImplicit (pool : ConstantPool) (e : LocalEntry) : Bool :=
  pool.text? e.name.toNat = some "this" || pool.text? e.name.toNat = some "super"

/-- Whether two entries describe one variable. -/
def describesSame (e e' : LocalEntry) : Bool :=
  e.start = e'.start && e.slot = e'.slot

/-- The types of the local variables that two tables list. A variable of the plain table is
mentioned by the type that the first entry of the other table for it gives, if there is one; then
come the variables that only the other table lists. -/
def uses (pool : ConstantPool) (plain generic : List LocalEntry) : List TypeUse :=
  (plain.filter fun e => !e.isImplicit pool).flatMap (fun e =>
    pool.signatureUse .localVariable ((generic.find? fun g => g.describesSame e).getD e).type) ++
  (generic.filter fun g => !g.isImplicit pool && !plain.any fun e => e.describesSame g).flatMap
    fun g => pool.signatureUse .localVariable g.type

/-- The variable that an entry describes. -/
def toVariable (pool : ConstantPool) (e : LocalEntry) : LocalVariable where
  start := e.start.toNat
  index := e.slot.toNat
  name := (pool.text? e.name.toNat).getD ""
  descriptor := (pool.text? e.type.toNat).getD ""

lemma reads_decodeList {entries : List LocalEntry} (hlt : entries.length < 2 ^ 16)
    (h : ∀ e ∈ entries, e.WellFormed pool) :
    Reads (LocalVariable.decodeList pool) (table encode entries)
      (entries.map (LocalEntry.toVariable pool)) := by
  rw [← List.flatMap_singleton' (entries.map _), List.flatMap_map]
  refine reads_counted hlt fun e he => ?_
  obtain ⟨name, hname, hreadName, -⟩ := (h e he).name.reads
  obtain ⟨type, htype, hreadType, -⟩ := (h e he).type.reads
  have hvariable : e.toVariable pool = ⟨e.start.toNat, e.slot.toNat, name, type⟩ := by
    rw [toVariable, hname, htype]
    rfl
  rw [hvariable]
  refine (reads_u2 e.start.toNat_lt).bind ((reads_skip (length_twoBytes _)).bind ?_)
  exact hreadName.bind (hreadType.bind ((reads_u2 e.slot.toNat_lt).map
    (f := fun index => [LocalVariable.mk e.start.toNat index name type])))

lemma sameSlot_toVariable (e e' : LocalEntry) :
    (e.toVariable pool).sameSlot (e'.toVariable pool) = e.describesSame e' := by
  rw [Bool.eq_iff_iff]
  simp [LocalVariable.sameSlot, toVariable, describesSame, UInt16.toNat_inj]

lemma isImplicit_toVariable {e : LocalEntry} (h : e.WellFormed pool) :
    (e.toVariable pool).isImplicit = e.isImplicit pool := by
  obtain ⟨name, hname, -, -⟩ := h.name.reads
  rw [Bool.eq_iff_iff]
  simp [LocalVariable.isImplicit, toVariable, isImplicit, hname]

lemma signatureUse_type {e : LocalEntry} (h : e.WellFormed pool) (kind : ReferenceKind) :
    pool.signatureUse kind e.type = [.signature kind (e.toVariable pool).descriptor] := by
  obtain ⟨type, htype, -, huse⟩ := h.type.reads
  simp [huse, toVariable, htype]

/-- The types of the entries of a table that a condition picks. -/
lemma map_filter_toVariable (typed : LocalVariable → LocalVariable)
    (typedEntry : LocalEntry → LocalEntry) {entries : List LocalEntry}
    (h : ∀ e ∈ entries, e.WellFormed pool) {p : LocalVariable → Bool} {q : LocalEntry → Bool}
    (hp : ∀ e ∈ entries, p (e.toVariable pool) = q e)
    (htyped : ∀ e ∈ entries, typed (e.toVariable pool) = (typedEntry e).toVariable pool ∧
      (typedEntry e).WellFormed pool) :
    (((entries.map (toVariable pool)).filter p).map fun v =>
        TypeUse.signature .localVariable (typed v).descriptor) =
      (entries.filter q).flatMap fun e => pool.signatureUse .localVariable (typedEntry e).type := by
  induction entries with
  | nil => rfl
  | cons e entries ih =>
    have he := htyped e (by simp)
    have hrest := ih (fun x hx => h x (by simp [hx])) (fun x hx => hp x (by simp [hx]))
      (fun x hx => htyped x (by simp [hx]))
    have hpe := hp e (by simp)
    rw [List.map_cons, List.filter_cons, List.filter_cons, hpe]
    split
    · rw [List.map_cons, List.flatMap_cons, hrest, signatureUse_type he.2, he.1]
      rfl
    · exact hrest

lemma mentions_toVariable {plain generic : List LocalEntry}
    (hplain : ∀ e ∈ plain, e.WellFormed pool) (hgeneric : ∀ e ∈ generic, e.WellFormed pool) :
    LocalVariable.mentions (plain.map (toVariable pool)) (generic.map (toVariable pool)) =
      uses pool plain generic := by
  have hfind : ∀ e : LocalEntry,
      (generic.map (toVariable pool)).find? (·.sameSlot (e.toVariable pool)) =
        (generic.find? fun g => g.describesSame e).map (toVariable pool) := by
    intro e
    rw [List.find?_map]
    congr 2
    funext g
    exact sameSlot_toVariable g e
  have hany : ∀ g : LocalEntry,
      (plain.map (toVariable pool)).any (·.sameSlot (g.toVariable pool)) =
        plain.any fun e => e.describesSame g := by
    intro g
    rw [List.any_map]
    congr 1
    funext e
    exact sameSlot_toVariable e g
  -- first the variables of the plain table, then those that only the other table lists
  rw [LocalVariable.mentions, uses]
  congr 1
  · refine map_filter_toVariable _ _ hplain (fun e he => ?_) (fun e he => ⟨?_, ?_⟩)
    · rw [isImplicit_toVariable (hplain e he)]
    · rw [hfind]
      cases generic.find? fun g => g.describesSame e <;> rfl
    · cases hg : generic.find? fun g => g.describesSame e with
      | none => exact hplain e he
      | some g => exact hgeneric g (List.mem_of_find?_eq_some hg)
  · refine map_filter_toVariable id id hgeneric (fun g hg => ?_)
      (fun g hg => ⟨rfl, hgeneric g hg⟩)
    rw [isImplicit_toVariable (hgeneric g hg), hany]

end LocalEntry

/-! ### Attributes of code -/

/-- The body of an attribute of code. -/
inductive CodeBody
  /-- Local variables with their descriptors. -/
  | localVariables (entries : List LocalEntry)
  /-- Local variables with their generic types. -/
  | localVariableTypes (entries : List LocalEntry)
  /-- What may stand on any structure. -/
  | common (body : CommonBody)

namespace CodeBody

variable {pool : ConstantPool}

/-- The written form of a body. -/
def encode : CodeBody → Bytes
  | localVariables entries | localVariableTypes entries => table LocalEntry.encode entries
  | common body => body.encode

/-- Whether a body is what an attribute called `name` holds. -/
def WellFormed (pool : ConstantPool) (name : String) : CodeBody → Prop
  | localVariables entries =>
    name = "LocalVariableTable" ∧ entries.length < 2 ^ 16 ∧ ∀ e ∈ entries, e.WellFormed pool
  | localVariableTypes entries =>
    name = "LocalVariableTypeTable" ∧ entries.length < 2 ^ 16 ∧ ∀ e ∈ entries, e.WellFormed pool
  | common body =>
    name ≠ "LocalVariableTable" ∧ name ≠ "LocalVariableTypeTable" ∧ body.WellFormed pool name

/-- The types that a body mentions, local variables apart. -/
def commonUses (pool : ConstantPool) : CodeBody → List TypeUse
  | common body => body.uses pool
  | _ => []

/-- The entries with descriptors. -/
def plainEntries : CodeBody → List LocalEntry
  | localVariables entries => entries
  | _ => []

/-- The entries with generic types. -/
def genericEntries : CodeBody → List LocalEntry
  | localVariableTypes entries => entries
  | _ => []

/-- The types that the attributes of code mention: first by themselves, then the local variables
that all tables list. -/
def uses (pool : ConstantPool) (bodies : List CodeBody) : List TypeUse :=
  bodies.flatMap (commonUses pool) ++
    LocalEntry.uses pool (bodies.flatMap plainEntries) (bodies.flatMap genericEntries)

/-- What the reader notes down of a body. -/
def detailsOf (pool : ConstantPool) : CodeBody → List CodeDetail
  | localVariables entries => (entries.map (LocalEntry.toVariable pool)).map .plainVariable
  | localVariableTypes entries => (entries.map (LocalEntry.toVariable pool)).map .genericVariable
  | common body => (body.uses pool).map .mention

lemma finds_decode {name : String} {b : CodeBody} (h : b.WellFormed pool name) :
    Finds (CodeDetail.decode pool name) b.encode (b.detailsOf pool) := by
  cases b with
  | localVariables entries =>
    obtain ⟨rfl, hlt, hentries⟩ := h
    have hread := LocalEntry.reads_decodeList hlt hentries
    exact (hread.map (f := fun locals => locals.map CodeDetail.plainVariable)).finds
  | localVariableTypes entries =>
    obtain ⟨rfl, hlt, hentries⟩ := h
    have hread := LocalEntry.reads_decodeList hlt hentries
    exact (hread.map (f := fun locals => locals.map CodeDetail.genericVariable)).finds
  | common body =>
    obtain ⟨hplain, hgeneric, hbody⟩ := h
    rw [CodeDetail.decode, if_neg hplain, if_neg hgeneric]
    exact (CommonBody.finds_ofAttribute hbody).map
      (f := fun mentions => mentions.map CodeDetail.mention)

lemma mentions_detailsOf {bodies : List CodeBody}
    (h : ∀ b ∈ bodies, ∃ name, b.WellFormed pool name) :
    CodeDetail.mentions (bodies.flatMap (detailsOf pool)) = uses pool bodies := by
  have hplain : ∀ e ∈ bodies.flatMap plainEntries, e.WellFormed pool := by
    intro e he
    obtain ⟨b, hb, he⟩ := List.mem_flatMap.1 he
    obtain ⟨name, hname⟩ := h b hb
    cases b with
    | localVariables entries => exact hname.2.2 e he
    | _ => simp [plainEntries] at he
  have hgeneric : ∀ e ∈ bodies.flatMap genericEntries, e.WellFormed pool := by
    intro e he
    obtain ⟨b, hb, he⟩ := List.mem_flatMap.1 he
    obtain ⟨name, hname⟩ := h b hb
    cases b with
    | localVariableTypes entries => exact hname.2.2 e he
    | _ => simp [genericEntries] at he
  rw [CodeDetail.mentions, uses, ← LocalEntry.mentions_toVariable hplain hgeneric,
    List.filterMap_flatMap, List.filterMap_flatMap, List.filterMap_flatMap, List.map_flatMap,
    List.map_flatMap]
  -- the three parts differ in what they pick of a body only
  congr 3 <;> funext b <;> cases b <;> simp [detailsOf, commonUses, plainEntries, genericEntries,
    List.filterMap_map, Function.comp_def]

end CodeBody

/-! ### Code -/

/-- An exception handler. -/
structure ExceptionHandler where
  /-- Where the code that it guards starts. -/
  start : UInt16
  /-- Where the code that it guards ends. -/
  stop : UInt16
  /-- Where it starts itself. -/
  entry : UInt16
  /-- The index of the class that it catches; zero if it catches everything. -/
  catchType : Index

namespace ExceptionHandler

/-- The written form of a handler. -/
def encode (h : ExceptionHandler) : Bytes :=
  twoBytes h.start.toNat ++ twoBytes h.stop.toNat ++ twoBytes h.entry.toNat ++
    twoBytes h.catchType.toNat

end ExceptionHandler

/-- The code of a method. -/
structure Code where
  /-- The room that it needs on the stack. -/
  maxStack : UInt16
  /-- The room that it needs for local variables. -/
  maxLocals : UInt16
  /-- Its instructions. -/
  instructions : List Instruction
  /-- Its exception handlers. -/
  handlers : List ExceptionHandler
  /-- Its attributes. -/
  attributes : List (Attribute CodeBody)

namespace Code

variable {pool : ConstantPool}

/-- The written form of code. -/
def encode (c : Code) : Bytes :=
  let instructions := c.instructions.flatMap Instruction.encode
  twoBytes c.maxStack.toNat ++ twoBytes c.maxLocals.toNat ++
    ((fourBytes instructions.length ++ instructions) ++
      (table ExceptionHandler.encode c.handlers ++
        table (Attribute.encode CodeBody.encode) c.attributes))

/-- Whether the parts of code are well-formed and fit their fields. -/
structure WellFormed (pool : ConstantPool) (c : Code) : Prop where
  size : (c.instructions.flatMap Instruction.encode).length < 2 ^ 32
  instructions : Instruction.WellFormedFrom pool 0 c.instructions
  handlerCount : c.handlers.length < 2 ^ 16
  handlers : ∀ h ∈ c.handlers, pool.HasClassOrNone h.catchType
  attributes : Attribute.ListWellFormed pool CodeBody.encode (CodeBody.WellFormed pool) c.attributes

/-- The types that code mentions: its instructions, its handlers, then its attributes. -/
def uses (pool : ConstantPool) (c : Code) : List TypeUse :=
  c.instructions.flatMap (Instruction.uses pool) ++
    c.handlers.flatMap (fun h => pool.optionalUse .catchType h.catchType) ++
    CodeBody.uses pool (c.attributes.map (·.body))

lemma reads_encode {c : Code} (h : c.WellFormed pool) :
    Reads (decodeCode pool) c.encode (c.uses pool) := by
  have hhandlers : Reads (counted (decodeCatch pool)) (table ExceptionHandler.encode c.handlers)
      (c.handlers.flatMap fun h => pool.optionalUse .catchType h.catchType) := by
    refine reads_counted h.handlerCount fun handler hmem => ?_
    exact (reads_skip (by simp)).bind
      (ConstantPool.reads_optionalUse .catchType (h.handlers handler hmem))
  have hattributes := Attribute.reads_decodeAttributes h.attributes
    (fun _ _ hb => CodeBody.finds_decode hb)
  have huses : CodeDetail.mentions (c.attributes.flatMap fun a => a.body.detailsOf pool) =
      CodeBody.uses pool (c.attributes.map (·.body)) := by
    rw [← CodeBody.mentions_detailsOf, List.flatMap_map]
    intro b hb
    obtain ⟨a, ha, rfl⟩ := List.mem_map.1 hb
    exact (h.attributes.each a ha).2.imp fun _ hname => hname.2
  have hinstructions := (Instruction.finds_sequence h.instructions).prefixed h.size
  rw [uses, ← huses]
  refine (reads_skip (by simp)).bind ?_
  rw [← bind_assoc]
  exact hinstructions.bind (hhandlers.bind (hattributes.map
    (f := fun details => _ ++ _ ++ CodeDetail.mentions details)))

end Code
end ClassFile
end ClasspathAudit
