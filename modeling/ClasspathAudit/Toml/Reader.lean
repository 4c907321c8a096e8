import ClasspathAudit.Toml.Scalar
import ClasspathAudit.Toml.Value

/-
# Reading TOML

A reader for TOML 1.1: comments, bare, quoted and dotted keys, texts in all four forms, lists,
tables in braces, headers of tables and of lists of tables. A document is read as a sequence of
statements, and these are put together afterwards. Readers say only whether a text is accepted.

Values nest up to a fixed depth. The recursion is on a budget besides: each step has a character of
its own to pass over, be it the one that closes a list, so a text that is accepted never uses up a
budget of one more than its number of characters.
-/
namespace ClasspathAudit
namespace Toml

/-- A reader of the start of a text: what it found and what is left. -/
abbrev Reader := StateT (List Char) Option

namespace Reader

/-- Refuses the text. -/
def refuse {α : Type} : Reader α := fun _ => none

/-- What is left of the text. -/
def rest : Reader (List Char) := fun chars => some (chars, chars)

/-- Passes over `count` characters. -/
def skip (count : Nat) : Reader Unit := fun chars => some ((), chars.drop count)

/-- Passes over `text`, which has to come next. -/
def expect (text : List Char) : Reader Unit := fun chars =>
  if text.isPrefixOf chars then some ((), chars.drop text.length) else none

/-- Passes over the characters that come next and satisfy `p`, and gives them. -/
def many (p : Char → Bool) : Reader (List Char) := fun chars =>
  some (chars.takeWhile p, chars.dropWhile p)

/-- Runs a reader of budget `n` with a budget that the text cannot use up. -/
def withBudget {α : Type} (reader : Nat → Reader α) : Reader α := fun chars =>
  reader (chars.length + 1) chars

end Reader

open Reader

/-! ### Blanks and comments -/

/-- Whether a character is a blank inside a line. -/
def isSpace (c : Char) : Bool :=
  c == ' ' || c == '\t'

/-- Whether a character may stand in a comment or a literal text: any but control characters, tabs
apart. -/
def isPlain (c : Char) : Bool :=
  c == '\t' || (0x20 ≤ c.toNat && c.toNat != 0x7F)

/-- Passes over blanks inside a line. -/
def spaces : Reader Unit := do
  let _ ← many isSpace

/-- Passes over a comment, if one comes next. -/
def comment : Reader Unit := do
  match ← rest with
  | '#' :: _ => do
    let _ ← many isPlain
  | _ => return ()

/-- Passes over the end of a line, if one comes next, and says whether it did. -/
def lineEnd : Reader Bool := do
  match ← rest with
  | '\n' :: _ => do
    skip 1
    return true
  | '\r' :: '\n' :: _ => do
    skip 2
    return true
  | _ => return false

/-- What is left of a text after blanks, comments and ends of lines, where `inComment` says whether
a comment is open. -/
def afterGap (inComment : Bool) : List Char → List Char
  | '\n' :: rest | '\r' :: '\n' :: rest => afterGap false rest
  | c :: rest =>
    if inComment then if isPlain c then afterGap true rest else c :: rest
    else if isSpace c then afterGap false rest
    else if c = '#' then afterGap true rest
    else c :: rest
  | [] => []

/-- Passes over all blanks, comments and ends of lines that come next. -/
def anyGap : Reader Unit := fun chars =>
  some ((), afterGap false chars)

/-! ### Texts -/

/-- The value of a hexadecimal digit. -/
def hexValue (c : Char) : Nat :=
  if c.isDigit then c.toNat - '0'.toNat
  else if 'a' ≤ c ∧ c ≤ 'f' then c.toNat - 'a'.toNat + 10
  else c.toNat - 'A'.toNat + 10

/-- Reads a character given by `count` hexadecimal digits. -/
def codePoint (count : Nat) : Reader Char := do
  let digits := (← rest).take count
  if digits.length = count ∧ digits.all Scalar.isHexDigit = true then do
    skip count
    let n := digits.foldl (fun n c => 16 * n + hexValue c) 0
    if n.isValidChar then return Char.ofNat n else refuse
  else refuse

/-- Reads an escape after its backslash. -/
def escape : Reader Char := do
  match ← rest with
  | c :: _ => do
    skip 1
    match c with
    | 'b' => return '\x08'
    | 't' => return '\t'
    | 'n' => return '\n'
    | 'f' => return '\x0c'
    | 'r' => return '\r'
    | 'e' => return '\x1b'
    | '"' => return '"'
    | '\\' => return '\\'
    | 'x' => codePoint 2
    | 'u' => codePoint 4
    | 'U' => codePoint 8
    | _ => refuse
  | [] => refuse

/-- Reads a text in double quotes after its first quote. -/
def basicText : Nat → Reader (List Char)
  | 0 => refuse
  | budget + 1 => do
    match ← rest with
    | '"' :: _ => do
      skip 1
      return []
    | '\\' :: _ => do
      skip 1
      let c ← escape
      let more ← basicText budget
      return c :: more
    | c :: _ =>
      if isPlain c then do
        skip 1
        let more ← basicText budget
        return c :: more
      else refuse
    | [] => refuse

/-- Reads a text in single quotes after its first quote. -/
def literalText : Reader (List Char) := do
  let text ← many fun c => isPlain c && c != '\''
  expect ['\'']
  return text

/-- Passes over a line break that follows the opening quotes. -/
def firstLineEnd : Reader Unit := do
  let _ ← lineEnd

/-- Reads the characters and the end of a text in three quotes of the kind `quote`. Up to two
quotes may stand right before the closing ones; `inner` reads one or more other characters. -/
def longText (quote : Char) (inner : Reader (List Char)) : Nat → Reader (List Char)
  | 0 => refuse
  | budget + 1 => do
    let run := ((← rest).takeWhile (· == quote)).length
    if 3 ≤ run then
      if run ≤ 5 then do
        skip run
        return List.replicate (run - 3) quote
      else refuse
    else if 0 < run then do
      skip run
      let more ← longText quote inner budget
      return List.replicate run quote ++ more
    else do
      let found ← inner
      let more ← longText quote inner budget
      return found ++ more

/-- Reads one character, or one line break, of a text in three quotes. -/
def longCharacter : Reader (List Char) := do
  match ← rest with
  | '\n' :: _ => do
    skip 1
    return ['\n']
  | '\r' :: '\n' :: _ => do
    skip 2
    return ['\r', '\n']
  | c :: _ =>
    if isPlain c then do
      skip 1
      return [c]
    else refuse
  | [] => refuse

/-- What is left of a text after blanks and line breaks. -/
def afterBlankLines : List Char → List Char
  | '\n' :: rest | '\r' :: '\n' :: rest => afterBlankLines rest
  | c :: rest => if isSpace c then afterBlankLines rest else c :: rest
  | [] => []

/-- Reads one character, line break or escape of a text in three double quotes. A backslash at the
end of a line takes all blanks after it away. -/
def longBasicCharacter : Reader (List Char) := do
  match ← rest with
  | '\\' :: afterMark => do
    let line := afterMark.dropWhile isSpace
    match line with
    | '\n' :: _ | '\r' :: '\n' :: _ => do
      set (afterBlankLines line)
      return []
    | _ => do
      skip 1
      let c ← escape
      return [c]
  | _ => longCharacter

/-- Reads a text in one of its four forms. -/
def textLiteral (budget : Nat) : Reader (List Char) := do
  match ← rest with
  | '"' :: '"' :: '"' :: _ => do
    skip 3
    firstLineEnd
    longText '"' longBasicCharacter budget
  | '"' :: _ => do
    skip 1
    basicText budget
  | '\'' :: '\'' :: '\'' :: _ => do
    skip 3
    firstLineEnd
    longText '\'' longCharacter budget
  | '\'' :: _ => do
    skip 1
    literalText
  | _ => refuse

/-! ### Keys -/

/-- Whether a character may stand in a key without quotes. -/
def isBareKey (c : Char) : Bool :=
  c.isAlphanum || c == '_' || c == '-'

/-- Reads one part of a key. -/
def simpleKey (budget : Nat) : Reader String := do
  match ← rest with
  | '"' :: _ => do
    skip 1
    let text ← basicText budget
    return String.ofList text
  | '\'' :: _ => do
    skip 1
    let text ← literalText
    return String.ofList text
  | _ => do
    let text ← many isBareKey
    if text.isEmpty then refuse else return String.ofList text

/-- Reads the parts of a dotted key. -/
def dottedKey : Nat → Reader (List String)
  | 0 => refuse
  | budget + 1 => do
    let key ← simpleKey budget
    spaces
    match ← rest with
    | '.' :: _ => do
      skip 1
      spaces
      let more ← dottedKey budget
      return key :: more
    | _ => return [key]

/-- The greatest number of parts of a key, and of levels of values. -/
def maxDepth : Nat := 80

/-- Reads a key. -/
def key (budget : Nat) : Reader (List String) := do
  let path ← dottedKey budget
  if path.length ≤ maxDepth then return path else refuse

/-! ### Values -/

/-- The characters that end a number, a truth value or a date. -/
def scalarEnds : List Char :=
  ['=', ',', '[', ']', '\x7b', '\x7d', ' ', '\t', '#', '\r', '\n']

/-- Whether a character may stand in a number, a truth value or a date, or in what looks like one. -/
def isScalarCharacter (c : Char) : Bool :=
  !scalarEnds.contains c

/-- Reads a number, a truth value or a date; between a date and a time may be a blank. -/
def scalar : Reader Value := do
  let first ← many isScalarCharacter
  match Scalar.date? first, ← rest with
  | some [], ' ' :: c :: _ =>
    if c.isDigit then do
      skip 1
      let second ← many isScalarCharacter
      let literal := first ++ ' ' :: second
      if Scalar.isLiteral literal then return .scalar literal else refuse
    else return .scalar first
  | _, _ => if Scalar.isLiteral first then return .scalar first else refuse

mutual

/-- Reads a value in which values may still nest `levels` deep. -/
def value : Nat → Nat → Reader Value
  | 0, _ => refuse
  | budget + 1, levels => do
    match ← rest, levels with
    | '"' :: _, _ | '\'' :: _, _ => do
      let text ← textLiteral budget
      return .text (String.ofList text)
    | '[' :: _, levels + 1 => do
      skip 1
      anyGap
      let items ← listItems budget levels
      return .list items
    | '{' :: _, levels + 1 => do
      skip 1
      anyGap
      let pairs ← tablePairs budget levels
      match pairs.foldlM (fun entries (path, value) => Entries.assign? path value entries) [] with
      | some entries => return .table .inline entries
      | none => refuse
    | _, _ => scalar

/-- Reads the items of a list up to its closing bracket. -/
def listItems : Nat → Nat → Reader (List Value)
  | 0, _ => refuse
  | budget + 1, levels => do
    match ← rest with
    | ']' :: _ => do
      skip 1
      return []
    | _ => do
      let item ← value budget levels
      anyGap
      match ← rest with
      | ',' :: _ => do
        skip 1
        anyGap
        let more ← listItems budget levels
        return item :: more
      | _ => do
        expect [']']
        return [item]

/-- Reads the keys and values of a table in braces up to its closing brace. -/
def tablePairs : Nat → Nat → Reader (List (List String × Value))
  | 0, _ => refuse
  | budget + 1, levels => do
    match ← rest with
    | '}' :: _ => do
      skip 1
      return []
    | _ => do
      let path ← key budget
      anyGap
      expect ['=']
      anyGap
      let found ← value budget levels
      anyGap
      match ← rest with
      | ',' :: _ => do
        skip 1
        anyGap
        let more ← tablePairs budget levels
        return (path, found) :: more
      | _ => do
        expect ['}']
        return [(path, found)]

end

/-! ### Documents -/

/-- Reads a header or a key with its value. -/
def statement (budget : Nat) : Reader Statement := do
  match ← rest with
  | '[' :: '[' :: _ => do
    skip 2
    spaces
    let path ← key budget
    expect [']', ']']
    return .element path
  | '[' :: _ => do
    skip 1
    spaces
    let path ← key budget
    expect [']']
    return .table path
  | _ => do
    let path ← key budget
    expect ['=']
    spaces
    let found ← value budget maxDepth
    return .assignment path found

/-- Reads statements, one a line, to the end of the text. -/
def statements : Nat → Reader (List Statement)
  | 0 => return []
  | budget + 1 => do
    anyGap
    match ← rest with
    | [] => return []
    | _ => do
      let first ← statement (budget + 1)
      spaces
      comment
      if ← lineEnd then do
        let more ← statements budget
        return first :: more
      else
        match ← rest with
        | [] => return [first]
        | _ => refuse

/-- The table that a document describes; a byte order mark may stand before it. -/
def read? (document : String) : Option Entries :=
  let chars := match document.toList with
    | '\uFEFF' :: chars => chars
    | chars => chars
  match (withBudget statements).run chars with
  | some (found, _) => Entries.ofStatements? found [] []
  | none => none

end Toml
end ClasspathAudit
