/-
# Text

Blank characters, ASCII case and counted nouns: the few rules on text that descriptors, paths and
reports share. Texts are taken apart as lists of characters, so that every rule is a recursion on
a list.
-/
namespace ClasspathAudit
namespace Text

/-! ### Blank characters -/

/-- The characters of the Unicode property `White_Space`. -/
def isBlank (c : Char) : Bool :=
  let n := c.toNat
  (9 ≤ n && n ≤ 13) || n == 0x20 || n == 0x85 || n == 0xA0 || n == 0x1680 ||
    (0x2000 ≤ n && n ≤ 0x200A) || n == 0x2028 || n == 0x2029 || n == 0x202F || n == 0x205F ||
    n == 0x3000

/-- A text without the blank characters at its two ends. -/
def trimmed (text : List Char) : List Char :=
  ((text.dropWhile isBlank).reverse.dropWhile isBlank).reverse

/-- `text` without the blank characters at its two ends. -/
def trim (text : String) : String :=
  String.ofList (trimmed text.toList)

/-- Whether nothing of `text` is left after trimming: no character of it is more than blank. -/
def isAllBlank (text : String) : Bool :=
  text.toList.all isBlank

/-! ### ASCII letters -/

/-- `text` with the letters `A` to `Z` in lower case; all other characters stay. -/
def lowerAscii (text : String) : String :=
  text.map Char.toLower

/-! ### Replacing characters -/

/-- Writes `image c` in place of every character `c` of `text`. -/
def substitute (image : Char → List Char) (text : String) : String :=
  String.ofList (text.toList.flatMap image)

/-- Writes `image` in place of every `c` in `text`. -/
def replaceChar (c : Char) (image : String) (text : String) : String :=
  substitute (fun d => if d = c then image.toList else [d]) text

/-! ### Counted nouns -/

/-- The plural of an English noun by its ending: `dependency` gives `dependencies`, `key` gives
`keys`, `class` gives `classes`. -/
def plural (word : List Char) : List Char :=
  if ['y'].isSuffixOf word && !(['e', 'y'].isSuffixOf word) then
    word.dropLast ++ ['i', 'e', 's']
  else if ['s', 's'].isSuffixOf word then
    word ++ ['e', 's']
  else
    word ++ ['s']

/-- `word` in the number that `count` asks for. -/
def pluralize (word : String) (count : Nat) : String :=
  if count = 1 then word else String.ofList (plural word.toList)

/-- A count with its noun, such as `3 classes`. -/
def counted (count : Nat) (word : String) : String :=
  s!"{count} " ++ pluralize word count

/-! ### Lists of texts -/

/-- The parts of a text between the characters that are `separator`; always at least one part. -/
def splitAtChar (separator : Char) : List Char → List (List Char)
  | [] => [[]]
  | c :: rest =>
    if c = separator then
      [] :: splitAtChar separator rest
    else
      match splitAtChar separator rest with
      | [] => [[c]]
      | part :: parts => (c :: part) :: parts

theorem splitAtChar_ne_nil (separator : Char) (text : List Char) :
    splitAtChar separator text ≠ [] := by
  cases text with
  | nil => simp [splitAtChar]
  | cons c rest =>
    rw [splitAtChar]
    split
    · simp
    · split <;> simp

/-- The parts of `text` between the characters that are `separator`. -/
def splitOnChar (separator : Char) (text : String) : List String :=
  (splitAtChar separator text.toList).map String.ofList

/-- Lines of output, each ended by a line feed. -/
def unlines (lines : List String) : String :=
  String.join (lines.map (· ++ "\n"))

end Text
end ClasspathAudit
