import ClasspathAudit.Text

/-
# Packaging types and scopes

How an artifact is packaged decides whether it can hold classes at all; the scope of a dependency
decides whether its classes are there when the project is compiled.
-/
namespace ClasspathAudit

/-! ### Packaging types -/

/-- The packaging type of an artifact or project. -/
inductive Packaging
  | jar
  | war
  | ejb
  | ear
  | pom
  /-- A type without rules of its own. -/
  | other (name : String)
deriving DecidableEq, Inhabited

namespace Packaging

/-- The name of a type. -/
def label : Packaging → String
  | jar => "jar"
  | war => "war"
  | ejb => "ejb"
  | ear => "ear"
  | pom => "pom"
  | other name => name

/-- The type called `name`, which may be in upper case and have blanks around it. -/
def ofText (name : String) : Packaging :=
  match Text.lowerAscii (Text.trim name) with
  | "jar" => jar
  | "war" => war
  | "ejb" => ejb
  | "ear" => ear
  | "pom" => pom
  | name => other name

/-- Whether archives of the type hold compiled classes. -/
def carriesClasses : Packaging → Bool
  | jar | war | ejb => true
  | ear | pom | other _ => false

/-- The ending of the archive's file name. -/
def fileExtension : Packaging → String
  | jar | ejb => "jar"
  | other name =>
    if name ∈ ["test-jar", "ejb-client", "maven-plugin", "java-source"] then "jar" else name
  | type => type.label

/-- The place of a type in their order, where all types without rules share the last one. -/
def rank : Packaging → Nat
  | jar => 0
  | war => 1
  | ejb => 2
  | ear => 3
  | pom => 4
  | other _ => 5

/-- The known types come first, the others in the order of their names. -/
instance : Ord Packaging := ⟨compareLex (compareOn rank) (compareOn label)⟩

instance : Std.TransOrd Packaging :=
  inferInstanceAs (Std.TransCmp (compareLex (compareOn rank) (compareOn label)))

instance : Std.LawfulEqOrd Packaging where
  eq_of_compare {a b} h := by
    have h' : (compare a.rank b.rank).then (compare a.label b.label) = .eq := h
    obtain ⟨hr, hl⟩ := Ordering.then_eq_eq.1 h'
    have hr : a.rank = b.rank := Std.LawfulEqOrd.eq_of_compare hr
    have hl : a.label = b.label := Std.LawfulEqOrd.eq_of_compare hl
    cases a <;> cases b <;> simp_all [rank, label]

end Packaging

/-! ### Scopes -/

/-- When a dependency is needed. -/
inductive Scope
  | compile
  | provided
  | runtime
  | test
  | system
  | imported
deriving DecidableEq, Inhabited

namespace Scope

/-- The name of a scope. -/
def label : Scope → String
  | compile => "compile"
  | provided => "provided"
  | runtime => "runtime"
  | test => "test"
  | system => "system"
  | imported => "import"

/-- All scopes, in the order in which messages list them. -/
def all : List Scope :=
  [compile, provided, runtime, test, system, imported]

/-- The scope called `label`, spelled exactly so. -/
def ofLabel? (label : String) : Option Scope :=
  all.find? (·.label == label)

/-- Whether the classes of a dependency are there at compile time; those of the scopes `runtime`
and `test` are not. -/
def isCompileVisible : Scope → Bool
  | runtime | test => false
  | _ => true

end Scope
end ClasspathAudit
