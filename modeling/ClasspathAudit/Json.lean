import ClasspathAudit.Text

/-
# JSON documents

Values of JSON and their written form: one value a line, two blanks of indentation for every level,
nothing between the brackets of an empty list or object. The fields of an object are written in the
order in which they stand.
-/
namespace ClasspathAudit

/-- A value of JSON. -/
inductive Json
  | bool (value : Bool)
  | number (value : Nat)
  | text (value : String)
  | list (items : List Json)
  | object (fields : List (String × Json))

namespace Json

/-! ### Texts -/

/-- A hexadecimal digit. -/
def hexDigit (n : Nat) : Char :=
  Nat.digitChar n

/-- A character as it stands between quotes. -/
def escapeChar (c : Char) : List Char :=
  if c = '"' then ['\\', '"']
  else if c = '\\' then ['\\', '\\']
  else if c = '\x08' then ['\\', 'b']
  else if c = '\x0c' then ['\\', 'f']
  else if c = '\n' then ['\\', 'n']
  else if c = '\r' then ['\\', 'r']
  else if c = '\t' then ['\\', 't']
  else if c.toNat < 0x20 then
    ['\\', 'u', '0', '0', hexDigit (c.toNat / 16), hexDigit (c.toNat % 16)]
  else [c]

/-- A text between quotes. -/
def quoted (text : String) : String :=
  "\"" ++ Text.substitute escapeChar text ++ "\""

/-! ### Values -/

/-- A list of texts. -/
def texts (items : List String) : Json :=
  list (items.map text)

/-- The start of a line at a level of indentation. -/
def lineStart (depth : Nat) : String :=
  "\n" ++ String.ofList (List.replicate (2 * depth) ' ')

mutual

/-- A value at a level of indentation. -/
def render (depth : Nat) : Json → String
  | bool true => "true"
  | bool false => "false"
  | number n => toString n
  | text t => quoted t
  | list [] => "[]"
  | list (item :: rest) => "[" ++ renderItems (depth + 1) (item :: rest) ++ lineStart depth ++ "]"
  | object [] => "\x7b\x7d"
  | object (field :: rest) =>
    "\x7b" ++ renderFields (depth + 1) (field :: rest) ++ lineStart depth ++ "\x7d"

/-- The items of a list, each on a line of its own. -/
def renderItems (depth : Nat) : List Json → String
  | [] => ""
  | [item] => lineStart depth ++ render depth item
  | item :: rest => lineStart depth ++ render depth item ++ "," ++ renderItems depth rest

/-- The fields of an object, each on a line of its own. -/
def renderFields (depth : Nat) : List (String × Json) → String
  | [] => ""
  | [(name, value)] => lineStart depth ++ quoted name ++ ": " ++ render depth value
  | (name, value) :: rest =>
    lineStart depth ++ quoted name ++ ": " ++ render depth value ++ "," ++ renderFields depth rest

end

/-- The written form of a value. -/
def pretty (value : Json) : String :=
  render 0 value

end Json
end ClasspathAudit
