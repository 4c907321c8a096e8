import ClasspathAudit.Text

/-
# Paths

A path is a text. Its parts are separated by `/`; empty parts and, after the first, the part `.`
carry no meaning, but nothing is taken out of the text: joining and cutting keep the rest of it as
it was written.
-/
namespace ClasspathAudit

/-- The path of a file or directory. -/
structure Path where
  /-- The path as written. -/
  text : String
deriving DecidableEq, Inhabited

namespace Path

/-! ### Joining -/

/-- Whether the path starts at the root. -/
def isAbsolute (p : Path) : Bool :=
  p.text.toList.head? == some '/'

/-- The path `q` seen from the directory `p`: an absolute `q` stays as it is, and otherwise a `/`
stands between the two, unless `p` is empty or ends in one. -/
def join (p q : Path) : Path :=
  if q.isAbsolute then q
  else
    match p.text.toList.getLast? with
    | none | some '/' => ⟨p.text ++ q.text⟩
    | some _ => ⟨p.text ++ "/" ++ q.text⟩

/-- The file or directory called `name` in the directory `p`. -/
def child (p : Path) (name : String) : Path :=
  p.join ⟨name⟩

/-! ### Components -/

/-- A part of a path that carries meaning. -/
inductive Component
  /-- The root of the file system. -/
  | root
  /-- The directory itself, at the start of a path. -/
  | current
  /-- The directory above. -/
  | parent
  /-- A name in the directory. -/
  | name (name : String)
deriving DecidableEq

namespace Component

/-- The place of a kind of component in their order. -/
def rank : Component → Nat
  | root => 0
  | current => 1
  | parent => 2
  | name _ => 3

/-- The name of a component, empty for the others. -/
def text : Component → String
  | .name text => text
  | _ => ""

/-- The root comes first, then `.`, then `..`, then names in the order of their code points. -/
instance : Ord Component := ⟨compareLex (compareOn rank) (compareOn text)⟩

end Component

/-- The start of a path that is no name, then the texts between the slashes of the rest. -/
def parts (p : Path) : List Char × List (List Char) :=
  match p.text.toList with
  | '/' :: rest => (['/'], Text.splitAtChar '/' rest)
  | ['.'] => (['.'], [[]])
  | '.' :: '/' :: rest => (['.'], Text.splitAtChar '/' ('/' :: rest))
  | chars => ([], Text.splitAtChar '/' chars)

/-- Whether a text between two slashes carries no meaning. -/
def isVoid (part : List Char) : Bool :=
  part == [] || part == ['.']

/-- The component that a text between two slashes stands for. -/
def component? (part : List Char) : Option Component :=
  if isVoid part then none
  else if part = ['.', '.'] then some .parent
  else some (.name (String.ofList part))

/-- The components of a path, from its start. -/
def components (p : Path) : List Component :=
  let (start, rest) := p.parts
  (match start with
    | ['/'] => [.root]
    | ['.'] => [.current]
    | _ => []) ++ rest.filterMap component?

/-- The part of a list before the void parts at its end. -/
def dropVoidEnd (rest : List (List Char)) : List (List Char) :=
  (rest.reverse.dropWhile isVoid).reverse

/-- The directory that holds what the path names: the path without its last component and without
void parts before that. The root and the empty path have none. -/
def parent? (p : Path) : Option Path :=
  let (start, rest) := p.parts
  match dropVoidEnd rest with
  | [] => if start = ['.'] then some ⟨""⟩ else none
  | part :: more =>
    let kept := dropVoidEnd (part :: more).dropLast
    some ⟨String.ofList (start ++ (List.intersperse ['/'] kept).flatten)⟩

/-- Paths are ordered component by component. -/
def compareByComponents (p q : Path) : Ordering :=
  compare p.components q.components

/-- The last component, if it is a name. -/
def fileName? (p : Path) : Option String :=
  match p.components.getLast? with
  | some (.name name) => some name
  | _ => none

/-- What follows the last dot of a file name; a name that starts with its last dot has none. -/
def extensionOf? (name : String) : Option String :=
  let chars := name.toList
  let ending := chars.reverse.takeWhile (· != '.')
  if ending.length + 1 < chars.length then some (String.ofList ending.reverse) else none

end Path
end ClasspathAudit
