import ClasspathAudit.ClassIndex
import ClasspathAudit.Console.Style
import ClasspathAudit.Json

/-
# Listings of references

The classes found at a path, a class file, a directory or an archive, and for each the classes that
it uses. A listing may name the kind of place with every class; it then has one line for every pair
of a class and a kind.
-/
namespace ClasspathAudit
namespace ReferenceListing

/-! ### Reading -/

/-- The name of an entry of an archive in messages. -/
def entryPath (archive : Path) (name : String) : Path :=
  ⟨archive.text ++ "!/" ++ name⟩

/-- Whether an entry of an archive holds a compiled class. -/
def holdsClass (entry : Archive.Entry) : Bool :=
  !entry.isDirectory && ClassName.fileSuffix.isSuffixOf entry.name.toList

/-- The fault of data in an archive, as one of reading. -/
def faultOf : Archive.DataFault → FileFault
  | .truncated => .unexpectedEnd
  | .corrupt => .invalidInput
  | .badCheckSum => .other

/-- The compiled class in an entry of an archive, if it holds one. -/
def readEntry (archive : Path) (content : Array UInt8) (entry : Archive.Entry) :
    Except Failure (Option ClassReferences) :=
  match entry.locate? content with
  | none => .error (.archive archive)
  | some located =>
    if holdsClass entry then
      let path := entryPath archive entry.name
      match located.read content with
      | .error fault => .error (.file path (faultOf fault))
      | .ok bytes =>
        match ClassFile.scan bytes with
        | .ok c => .ok (some c)
        | .error error => .error (.classFile path error)
    else
      .ok none

/-- The compiled classes in the archive at a path, in the order of its directory. -/
def inArchive (fs : FileSystem) (path : Path) : Except Failure (List ClassReferences) := do
  let content ← ClassIndex.readArchive fs path
  match Archive.entries? content with
  | none => .error (.archive path)
  | some entries => do
    let classes ← entries.mapM (readEntry path content)
    return classes.filterMap id

/-- Whether a path names a compiled class. -/
def isClassPath (path : Path) : Bool :=
  path.fileName?.any FileSystem.isClassName

/-- The compiled classes at a path: those below a directory, the one in a class file, or those in
an archive. -/
def classesAt (fs : FileSystem) (path : Path) : Except Failure (List ClassReferences) :=
  if fs.isDirectory path then do
    let files ← fs.classFiles path
    files.mapM (DirectoryScan.readClass fs)
  else if isClassPath path then do
    return [← DirectoryScan.readClass fs path]
  else
    inArchive fs path

/-- The compiled classes at a path, in the order of their names. -/
def ofPath (fs : FileSystem) (path : Path) : Except Failure (List ClassReferences) := do
  let classes ← classesAt fs path
  return classes.mergeSort fun a b => (compare a.className b.className).isLE

/-! ### What is listed -/

/-- The order of listed references: by kind, then by class. -/
def referenceLE (a b : Reference) : Bool :=
  (compareLex (compareOn Reference.kind) (compareOn Reference.className) a b).isLE

/-- The references of a class to other classes, each pair of kind and class once. -/
def kinded (c : ClassReferences) : List Reference :=
  let others := c.references.filterMap fun
    | .ok reference => if reference.className = c.className then none else some reference
    | .error _ => none
  (others.eraseDups).mergeSort referenceLE

/-- The number of malformed signatures in a list of classes. -/
def skippedIn (classes : List ClassReferences) : Nat :=
  (classes.flatMap (·.referencedClasses.skipped)).length

/-! ### Forms -/

/-- The line of a reference, indented below its class. -/
def referenceLine (colors : Bool) (text : String) : String :=
  "  " ++ Style.dim.apply colors "→" ++ " " ++ text

/-- The lines of a class. -/
def classLines (colors kinds : Bool) (c : ClassReferences) : List String :=
  Style.bold.apply colors c.className.text ::
    if kinds then
      (kinded c).map fun reference =>
        referenceLine colors (reference.className.text ++ " " ++
          Style.dim.apply colors ("(" ++ reference.kind.label ++ ")"))
    else
      c.referencedClasses.classes.toList.map fun name => referenceLine colors name.text

/-- A listing for people. -/
def human (colors kinds : Bool) (classes : List ClassReferences) : String :=
  Text.unlines (classes.flatMap (classLines colors kinds))

/-- A class with its references. -/
def classJson (kinds : Bool) (c : ClassReferences) : Json :=
  .object [("class", .text c.className.text),
    ("references",
      if kinds then
        .list ((kinded c).map fun reference => .object
          [("class_name", .text reference.className.text), ("kind", .text reference.kind.label)])
      else
        .texts (c.referencedClasses.classes.toList.map (·.text)))]

/-- A listing for programs. -/
def json (kinds : Bool) (classes : List ClassReferences) : String :=
  (Json.list (classes.map (classJson kinds))).pretty ++ "\n"

end ReferenceListing
end ClasspathAudit
