import ClasspathAudit.Text

/-
# Values of a TOML document

A document is a table of values. Headers and dotted keys build tables up piece by piece; which
pieces may still be added depends on how a table came to be, so each table keeps its origin.
-/
namespace ClasspathAudit
namespace Toml

/-- How a table came to be. -/
inductive Origin
  /-- By a header of its own. -/
  | header
  /-- As a step on the way to the table of a header. -/
  | implied
  /-- As a step in a dotted key. -/
  | dotted
  /-- Written out in braces, which closes it. -/
  | inline
deriving DecidableEq

/-- A value of a document. -/
inductive Value
  /-- A text. -/
  | text (text : String)
  /-- A number, a truth value or a date. -/
  | scalar (literal : List Char)
  /-- A list written out in brackets. -/
  | list (items : List Value)
  /-- A list of tables, to each of which a header belongs, the last one first. -/
  | tables (items : List (List (String × Value)))
  /-- A table. -/
  | table (origin : Origin) (entries : List (String × Value))

/-- The keys of a table with their values, in order. -/
abbrev Entries := List (String × Value)

namespace Entries

/-- The entries with the value of `key` replaced. -/
def replace (key : String) (value : Value) (entries : Entries) : Entries :=
  entries.map fun entry => if entry.1 = key then (key, value) else entry

/-- Adds a key that is not there yet. -/
def insertNew? (key : String) (value : Value) (entries : Entries) : Option Entries :=
  if (entries.lookup key).isSome then none else some (entries ++ [(key, value)])

/-- Changes the entries of the table that `path` leads to from `entries`. Tables that are not there
are made, with the origin `made`. A path leads through the last of a list of tables; it leads into
no closed table, and a dotted key leads into no table with a header. -/
def updateAt? (made : Origin) (change : Entries → Option Entries) :
    List String → Entries → Option Entries
  | [], entries => change entries
  | key :: path, entries =>
    match entries.lookup key with
    | none => do
      let made' ← updateAt? made change path []
      return entries ++ [(key, .table made made')]
    | some (.table origin sub) =>
      if origin = .inline ∨ (made = .dotted ∧ origin = .header) then none
      else do
        let sub ← updateAt? made change path sub
        return replace key (.table origin sub) entries
    | some (.tables (sub :: before)) =>
      if made = .dotted then none
      else do
        let sub ← updateAt? made change path sub
        return replace key (.tables (sub :: before)) entries
    | some _ => none

/-- Sets the value that a dotted key names. -/
def assign? (path : List String) (value : Value) (entries : Entries) : Option Entries := do
  let key ← path.getLast?
  updateAt? .dotted (insertNew? key value) path.dropLast entries

/-- Opens the table `key` for its header, which it must not have had. -/
def openTable? (key : String) (entries : Entries) : Option Entries :=
  match entries.lookup key with
  | none => some (entries ++ [(key, .table .header [])])
  | some (.table .implied sub) => some (replace key (.table .header sub) entries)
  | some _ => none

/-- Adds a table to the list of tables `key`. -/
def openElement? (key : String) (entries : Entries) : Option Entries :=
  match entries.lookup key with
  | none => some (entries ++ [(key, .tables [[]])])
  | some (.tables items) => some (replace key (.tables ([] :: items)) entries)
  | some _ => none

end Entries

/-! ### Documents as sequences of statements -/

/-- A line of a document that says something. -/
inductive Statement
  /-- The header of a table. -/
  | table (path : List String)
  /-- The header of an element of a list of tables. -/
  | element (path : List String)
  /-- A key with its value. -/
  | assignment (path : List String) (value : Value)

/-- The table that a sequence of statements describes, where `at` is the path of the table that is
open and `entries` what has been said before. -/
def Entries.ofStatements? : List Statement → List String → Entries → Option Entries
  | [], _, entries => some entries
  | .table path :: rest, _, entries => do
    let key ← path.getLast?
    let entries ← entries.updateAt? .implied (Entries.openTable? key) path.dropLast
    ofStatements? rest path entries
  | .element path :: rest, _, entries => do
    let key ← path.getLast?
    let entries ← entries.updateAt? .implied (Entries.openElement? key) path.dropLast
    ofStatements? rest path entries
  | .assignment path value :: rest, here, entries => do
    let entries ← entries.updateAt? .implied (Entries.assign? path value) here
    ofStatements? rest here entries

end Toml
end ClasspathAudit
