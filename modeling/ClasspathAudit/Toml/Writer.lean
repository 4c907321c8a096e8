import ClasspathAudit.Text

/-
# Writing texts in TOML

A text is written in the first of four forms that needs no escapes: double quotes, single quotes,
three double quotes, three single quotes. Where none does, double quotes with escapes are used.
-/
namespace ClasspathAudit
namespace Toml

/-! ### What decides the form -/

/-- Whether a character can only be written as an escape: a control character other than tab and
line feed. -/
def needsCode (c : Char) : Bool :=
  (c.toNat < 0x20 && c != '\t' && c != '\n') || c.toNat == 0x7F

/-- The length of the longest run of `c` in a text, where `here` of them come right before it. -/
def longestRun (c : Char) (here : Nat) : List Char → Nat
  | [] => here
  | x :: rest => if x = c then longestRun c (here + 1) rest else max here (longestRun c 0 rest)

/-! ### Escapes -/

/-- The four upper-case hexadecimal digits of a number below `0x10000`. -/
def upperHex4 (n : Nat) : List Char :=
  [n / 4096 % 16, n / 256 % 16, n / 16 % 16, n % 16].map fun d => (Nat.digitChar d).toUpper

/-- A control character as an escape. -/
def controlEscape (c : Char) : List Char :=
  if c = '\x08' then ['\\', 'b']
  else if c = '\t' then ['\\', 't']
  else if c = '\x0c' then ['\\', 'f']
  else if c = '\r' then ['\\', 'r']
  else if c = '\n' then ['\\', 'n']
  else '\\' :: 'u' :: upperHex4 c.toNat

/-- The characters of a text as they stand between double quotes. At most `quotes` double quotes in
a row are written as they are, of which `run` come right before; `keepsLines` says whether line
feeds stay. -/
def escaped (quotes : Nat) (keepsLines : Bool) (run : Nat) : List Char → List Char
  | [] => []
  | c :: rest =>
    if c = '"' then
      if run < quotes then c :: escaped quotes keepsLines (run + 1) rest
      else '\\' :: c :: escaped quotes keepsLines 0 rest
    else if c = '\\' then
      '\\' :: c :: escaped quotes keepsLines 0 rest
    else if c = '\n' ∧ keepsLines = true then
      c :: escaped quotes keepsLines 0 rest
    else if c.toNat < 0x20 ∨ c.toNat = 0x7F then
      controlEscape c ++ escaped quotes keepsLines 0 rest
    else
      c :: escaped quotes keepsLines 0 rest

/-! ### Forms -/

/-- Three quotes, and a line break if the text has one. -/
def longQuotes (quote : Char) (hasLines : Bool) : List Char :=
  [quote, quote, quote] ++ if hasLines then ['\n'] else []

/-- A text as a TOML value. -/
def written (text : List Char) : List Char :=
  let hasCodes := text.any needsCode
  let hasLines := text.contains '\n'
  let double := longestRun '"' 0 text
  let single := longestRun '\'' 0 text
  let hasMark := text.contains '\\'
  if !hasCodes && !hasMark && double == 0 && !hasLines then
    '"' :: escaped 0 false 0 text ++ ['"']
  else if !hasCodes && single == 0 && !hasLines then
    '\'' :: text ++ ['\'']
  else if !hasCodes && !hasMark && double ≤ 2 then
    longQuotes '"' hasLines ++ escaped 2 true 0 text ++ longQuotes '"' false
  else if !hasCodes && single ≤ 2 then
    longQuotes '\'' hasLines ++ text ++ longQuotes '\'' false
  else if hasLines then
    longQuotes '"' hasLines ++ escaped 2 true 0 text ++ longQuotes '"' false
  else
    '"' :: escaped 0 false 0 text ++ ['"']

/-- A key with a text as its value, as a line of a document. -/
def writeEntry (key text : String) : String :=
  s!"{key} = " ++ String.ofList (written text.toList) ++ "\n"

end Toml
end ClasspathAudit
