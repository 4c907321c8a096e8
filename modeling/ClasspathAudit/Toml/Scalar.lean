import ClasspathAudit.Text

/-
# Numbers, truth values and dates

The literals of TOML that are neither texts nor lists nor tables. Only their form matters here: no
descriptor has a use for their values, and nothing is said of a number that has a form but no value.
-/
namespace ClasspathAudit
namespace Toml
namespace Scalar

/-- Passes over digits that `isDigit` admits, with single underscores between them; `complete` says
whether a digit has come right before. -/
def digitsAfter? (isDigit : Char → Bool) (complete : Bool) : List Char → Option (List Char)
  | [] => if complete then some [] else none
  | c :: rest =>
    if isDigit c then digitsAfter? isDigit true rest
    else if !complete then none
    else if c = '_' then digitsAfter? isDigit false rest
    else some (c :: rest)

/-- Passes over one or more digits, with single underscores between them. -/
def digits? (isDigit : Char → Bool) (chars : List Char) : Option (List Char) :=
  digitsAfter? isDigit false chars

/-- Whether a character is a hexadecimal digit. -/
def isHexDigit (c : Char) : Bool :=
  c.isDigit || ('a' ≤ c && c ≤ 'f') || ('A' ≤ c && c ≤ 'F')

/-- Passes over a sign, if there is one. -/
def afterSign : List Char → List Char
  | '+' :: rest | '-' :: rest => rest
  | chars => chars

/-- Passes over a decimal whole number without superfluous zeros. -/
def whole? : List Char → Option (List Char)
  | '0' :: rest =>
    match rest with
    | c :: _ => if c.isDigit || c == '_' then none else some rest
    | [] => some rest
  | chars => digits? Char.isDigit chars

/-- Passes over a decimal whole number that may have a sign, and an underscore right after it. -/
def signed? (chars : List Char) : Option (List Char) :=
  match chars with
  | '+' :: '_' :: rest | '-' :: '_' :: rest => digits? Char.isDigit rest
  | _ => whole? (afterSign chars)

/-- Passes over an exponent, if there is one. -/
def afterExponent? : List Char → Option (List Char)
  | 'e' :: rest | 'E' :: rest => digits? Char.isDigit (afterSign rest)
  | chars => some chars

/-- Whether the text is a decimal number, whole or not. -/
def isDecimal (chars : List Char) : Bool :=
  match signed? chars with
  | none => false
  | some ('.' :: rest) =>
    match digits? Char.isDigit rest with
    | some rest => afterExponent? rest == some []
    | none => false
  | some rest => afterExponent? rest == some []

/-- Whether each underscore stands between two hexadecimal digits; `before` says whether one, or
what counts as one, has come right before. -/
def underscoresFit (before : Bool) : List Char → Bool
  | [] => true
  | c :: rest =>
    if c = '_' then before && rest.head?.any isHexDigit && underscoresFit false rest
    else underscoresFit (isHexDigit c) rest

/-- Whether a character marks a number that is not whole. -/
def isFractionMark (c : Char) : Bool :=
  c == '.' || c == 'e' || c == 'E'

/-- Whether the text is a whole number with an underscore right after its first digits. Of such a
number only the characters beside underscores are looked at; a sign counts as a digit there. -/
def isGrouped (chars : List Char) : Bool :=
  let unsigned := afterSign chars
  let tail := unsigned.dropWhile Char.isDigit
  tail.head? == some '_' && unsigned.head? != some '0' && !tail.any isFractionMark &&
    underscoresFit (unsigned.length < chars.length) unsigned

/-- Whether the text consists of digits that `isDigit` admits, with single underscores between
them, or is empty. -/
def areDigits (isDigit : Char → Bool) (chars : List Char) : Bool :=
  chars.isEmpty || digits? isDigit chars == some []

/-- Whether the text is a number. The digits after the mark of a base may be missing. -/
def isNumber (chars : List Char) : Bool :=
  match chars with
  | '0' :: 'x' :: rest => areDigits isHexDigit rest
  | '0' :: 'o' :: rest => areDigits (fun c => '0' ≤ c && c ≤ '7') rest
  | '0' :: 'b' :: rest => areDigits (fun c => c == '0' || c == '1') rest
  | _ =>
    afterSign chars == ['i', 'n', 'f'] || afterSign chars == ['n', 'a', 'n'] ||
      isDecimal chars || isGrouped chars

/-! ### Dates and times -/

/-- Reads a number of `width` digits that lies between two bounds, and gives what follows it. -/
def field? (width low high : Nat) (chars : List Char) : Option (Nat × List Char) :=
  let digits := chars.take width
  let value := digits.foldl (fun n c => 10 * n + (c.toNat - '0'.toNat)) 0
  if digits.length = width ∧ digits.all Char.isDigit = true ∧ low ≤ value ∧ value ≤ high then
    some (value, chars.drop width)
  else
    none

/-- Passes over one character, which has to be `c`. -/
def mark? (c : Char) : List Char → Option (List Char)
  | x :: rest => if x = c then some rest else none
  | [] => none

/-- Whether a year has a leap day. -/
def isLeapYear (year : Nat) : Bool :=
  year % 4 == 0 && (year % 100 != 0 || year % 400 == 0)

/-- The number of days of a month. -/
def daysIn (year month : Nat) : Nat :=
  if month = 2 then if isLeapYear year then 29 else 28
  else if month = 4 ∨ month = 6 ∨ month = 9 ∨ month = 11 then 30
  else 31

/-- Passes over a date of the calendar. -/
def date? (chars : List Char) : Option (List Char) := do
  let (year, rest) ← field? 4 0 9999 chars
  let (month, rest) ← field? 2 1 12 (← mark? '-' rest)
  let (_, rest) ← field? 2 1 (daysIn year month) (← mark? '-' rest)
  return rest

/-- Passes over hours and minutes. -/
def clock? (chars : List Char) : Option (List Char) := do
  let (_, rest) ← field? 2 0 23 chars
  let (_, rest) ← field? 2 0 59 (← mark? ':' rest)
  return rest

/-- Passes over the fraction of a second, if there is one. -/
def afterFraction? : List Char → Option (List Char)
  | '.' :: rest =>
    if (rest.takeWhile Char.isDigit).isEmpty then none else some (rest.dropWhile Char.isDigit)
  | chars => some chars

/-- Passes over a time, whose seconds may be left out. -/
def time? (chars : List Char) : Option (List Char) := do
  match ← clock? chars with
  | ':' :: rest => do
    let (_, rest) ← field? 2 0 60 rest
    afterFraction? rest
  | rest => return rest

/-- Whether the text is the offset of a time zone. -/
def isOffset : List Char → Bool
  | ['Z'] | ['z'] => true
  | '+' :: rest | '-' :: rest => clock? rest == some []
  | _ => false

/-- Whether the text is a date, a time or both. -/
def isMoment (chars : List Char) : Bool :=
  match date? chars with
  | none => time? chars == some []
  | some [] => true
  | some (c :: rest) =>
    (c == 'T' || c == 't' || c == ' ') &&
      match time? rest with
      | none => false
      | some [] => true
      | some zone => isOffset zone

/-- Whether the text is a literal of one of these kinds. -/
def isLiteral (chars : List Char) : Bool :=
  chars == ['t', 'r', 'u', 'e'] || chars == ['f', 'a', 'l', 's', 'e'] || isNumber chars ||
    isMoment chars

end Scalar
end Toml
end ClasspathAudit
