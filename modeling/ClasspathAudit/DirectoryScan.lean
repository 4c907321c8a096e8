import ClasspathAudit.ClassFile.Scan
import ClasspathAudit.FileSystem.Walk

/-
# Scanning a directory of compiled classes

The classes that a directory declares, and those that they use and the directory does not declare.
Each file contributes its part; the parts are merged in any order, and what is declared somewhere in
the directory is taken out of what is used once all parts are there.
-/
namespace ClasspathAudit

/-- What a set of compiled classes declares and uses. -/
structure DirectoryScan where
  /-- The classes declared. -/
  declared : ClassSet
  /-- The classes used. -/
  referenced : ClassSet
  /-- The number of malformed signatures, which were passed over. -/
  skippedSignatures : Nat

namespace DirectoryScan

/-- The scan of no class. -/
def empty : DirectoryScan := ⟨∅, ∅, 0⟩

/-- The scan of one class. -/
def ofClass (c : ClassReferences) : DirectoryScan :=
  let used := c.referencedClasses
  ⟨.ofList [c.className], used.classes, used.skipped.length⟩

/-- The scan of two sets of classes together. -/
def merge (a b : DirectoryScan) : DirectoryScan where
  declared := a.declared.union b.declared
  referenced := a.referenced.union b.referenced
  skippedSignatures := a.skippedSignatures + b.skippedSignatures

/-- The scan in which declared classes no longer count as used. -/
def external (scan : DirectoryScan) : DirectoryScan :=
  { scan with referenced := scan.referenced.filter (!scan.declared.contains ·) }

/-- The scan of classes that make up a directory. -/
def ofClasses (classes : List ClassReferences) : DirectoryScan :=
  (classes.foldl (fun scan c => scan.merge (ofClass c)) empty).external

/-- The compiled class in the file at a path. -/
def readClass (fs : FileSystem) (path : Path) : Except Failure ClassReferences :=
  match fs.readFile path with
  | .error fault => .error (.file path fault)
  | .ok content =>
    match ClassFile.scan content.toList with
    | .ok c => .ok c
    | .error error => .error (.classFile path error)

/-- What to tell about a directory that is not there. -/
def missingWarning (root : Path) : String :=
  s!"Directory '{root.text}' does not exist, nothing to scan"

/-- The scan of the directory at a path, which is empty if there is none. One class that cannot be
read fails the whole scan, because the sets would lack its part. -/
def ofDirectory (fs : FileSystem) (root : Path) : Except Failure DirectoryScan :=
  if fs.isDirectory root then do
    let files ← fs.classFiles root
    let classes ← files.mapM (readClass fs)
    return ofClasses classes
  else
    .ok empty

end DirectoryScan
end ClasspathAudit
