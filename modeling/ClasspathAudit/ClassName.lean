import ClasspathAudit.Text

/-
# Class names

The dotted names under which classes are compared. A compiled class names other classes with `/`
between packages and `$` before nested classes, an archive names them by entry paths; both
spellings are brought to one form, in which `/`, `\` and `$` are dots.
-/
namespace ClasspathAudit

/-- A fully qualified, dotted class name such as `com.acme.Foo.Inner`. -/
structure ClassName where
  /-- The dotted text. -/
  text : String
deriving DecidableEq, Inhabited

namespace ClassName

/-! ### Order -/

/-- Class names are ordered by the code points of their texts. -/
instance : Ord ClassName := ⟨compareOn text⟩

instance : Std.TransOrd ClassName :=
  inferInstanceAs (Std.TransCmp (compareOn text))

instance : Std.LawfulEqOrd ClassName where
  eq_of_compare {a b} h := by
    have : a.text = b.text := Std.LawfulEqOrd.eq_of_compare h
    cases a; cases b; simp_all

/-! ### Spellings -/

/-- The characters that separate the parts of a name in one spelling or another. -/
def isSeparator (c : Char) : Bool :=
  c == '/' || c == '\\' || c == '$'

/-- The dotted form of a name spelled with any of the separators. -/
def ofInternal (name : String) : ClassName :=
  ⟨name.map fun c => if isSeparator c then '.' else c⟩

/-- The ending of the file that holds a compiled class. -/
def fileSuffix : List Char :=
  ['.', 'c', 'l', 'a', 's', 's']

/-- The class that the archive entry at `path` holds: the path without its ending, if it ends as a
class file does and has more than the ending. -/
def ofEntryPath? (path : String) : Option ClassName :=
  let chars := path.toList
  if fileSuffix.isSuffixOf chars && fileSuffix.length < chars.length then
    some (ofInternal (String.ofList (chars.take (chars.length - fileSuffix.length))))
  else
    none

/-! ### Anonymous classes -/

/-- Whether the last dot-separated segment of a dotted name is a number. Compilers name anonymous
classes so (`Foo.1`); the class-file format does not promise it. -/
def isNumbered (name : List Char) : Bool :=
  let segment := name.reverse.takeWhile (· != '.')
  name.contains '.' && !segment.isEmpty && segment.all Char.isDigit

/-- Whether the name is one that a compiler gives to an anonymous class. -/
def isAnonymous (name : ClassName) : Bool :=
  isNumbered name.text.toList

end ClassName
end ClasspathAudit
