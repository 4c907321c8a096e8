import ClasspathAudit.FileSystem

/-
# Path patterns

A pattern stands for all paths that fit it. In a name, `*` stands for any characters, `?` for one,
and brackets for one of the characters in them, or after `!` for any other; a part `**` stands for
any number of directories. A pattern is read twice: as a whole, and again part by part.
-/
namespace ClasspathAudit

/-! ### Patterns for names -/

/-- What a piece of a pattern stands for. -/
inductive Wildcard
  /-- The character itself. -/
  | char (c : Char)
  /-- Any character. -/
  | any
  /-- Any characters, or none. -/
  | run
  /-- One of the characters in these ranges. -/
  | within (ranges : List (Char × Char))
  /-- A character in none of these ranges. -/
  | except (ranges : List (Char × Char))
  /-- Any number of directories. -/
  | directories
deriving DecidableEq

namespace Wildcard

/-- Whether a character lies in one of some ranges. -/
def isIn (ranges : List (Char × Char)) (c : Char) : Bool :=
  ranges.any fun (low, high) => low ≤ c && c ≤ high

/-- Whether a piece of a pattern stands for any number of characters. -/
def isRun (w : Wildcard) : Bool :=
  w == run || w == directories

/-- Whether a piece of a pattern can stand for a character. -/
def admits : Wildcard → Char → Bool
  | char c, x => c == x
  | within ranges, x => isIn ranges x
  | except ranges, x => !isIn ranges x
  | any, _ | run, _ | directories, _ => true

/-- For each place in a list, whether something holds there or later. -/
def hereOrLater : List Bool → List Bool
  | [] => []
  | here :: more =>
    let later := hereOrLater more
    (here || later.headD false) :: later

/-- For each end of a name, from the whole name to the empty one, whether it fits a pattern. The
answers for a pattern follow from those for the pattern without its first piece, so no end of the
name is looked at twice for the same pieces. -/
def endsFitting (name : List Char) : List Wildcard → List Bool
  | [] => name.map (fun _ => false) ++ [true]
  | w :: more =>
    let after := endsFitting name more
    if w.isRun then hereOrLater after
    else name.zipWith (fun x fits => w.admits x && fits) after.tail ++ [false]

/-- Whether a name fits a pattern. -/
def fits (pattern : List Wildcard) (name : List Char) : Bool :=
  (endsFitting name pattern).headD false

/-- The only name that fits a pattern, if it says so character by character. -/
def literal? : List Wildcard → Option (List Char)
  | [] => some []
  | char c :: more => (literal? more).map (c :: ·)
  | _ :: _ => none

end Wildcard

/-! ### Reading patterns -/

/-- What is wrong with a pattern. -/
inductive PatternFault
  /-- More than two asterisks in a row. -/
  | asterisks
  /-- Two asterisks that are not a part of their own. -/
  | notAlone
  /-- Brackets that are not closed, or have nothing in them. -/
  | brackets
deriving DecidableEq

/-- The wording of a fault. -/
def PatternFault.message : PatternFault → String
  | asterisks => "wildcards are either regular \x60*\x60 or recursive \x60**\x60"
  | notAlone => "recursive wildcards must form a single path component"
  | brackets => "invalid range pattern"

/-- A fault of a pattern with the position at which it was noticed. -/
structure PatternError where
  /-- The position, in characters. -/
  position : Nat
  /-- The fault. -/
  fault : PatternFault
deriving DecidableEq

/-- The wording of an error. -/
def PatternError.message (error : PatternError) : String :=
  s!"Pattern syntax error near position {error.position}: {error.fault.message}"

namespace PathPattern

/-- The ranges that the characters between brackets give. -/
def rangesOf : List Char → List (Char × Char)
  | low :: '-' :: high :: rest => (low, high) :: rangesOf rest
  | c :: rest => (c, c) :: rangesOf rest
  | [] => []

/-- The characters before the first closing bracket, and those after it. -/
def untilClosed? (text : List Char) : Option (List Char × List Char) :=
  match text.dropWhile (· != ']') with
  | _ :: rest => some (text.takeWhile (· != ']'), rest)
  | [] => none

/-- Reads brackets after the opening one: what they stand for, the number of characters read, and
the characters after them. The first character in them may be a closing bracket. -/
def bracketsOf? : List Char → Option (Wildcard × Nat × List Char)
  | '!' :: c :: rest =>
    (untilClosed? rest).map fun (chars, after) =>
      (.except (rangesOf (c :: chars)), chars.length + 3, after)
  | ['!'] => none
  | c :: rest =>
    (untilClosed? rest).map fun (chars, after) =>
      (.within (rangesOf (c :: chars)), chars.length + 2, after)
  | [] => none

/-- Reads a pattern from `position` on, before which `previous` stands. The budget counts
characters. -/
def readFrom : Nat → Nat → Option Char → List Char → Except PatternError (List Wildcard)
  | 0, _, _, _ => .ok []
  | _ + 1, _, _, [] => .ok []
  | budget + 1, position, previous, c :: rest =>
    if c = '?' then do
      return .any :: (← readFrom budget (position + 1) (some c) rest)
    else if c = '*' then
      let stars := (c :: rest).takeWhile (· == '*')
      let after := (c :: rest).dropWhile (· == '*')
      if stars.length = 1 then do
        return .run :: (← readFrom budget (position + 1) (some c) after)
      else if 2 < stars.length then .error ⟨position + 2, .asterisks⟩
      else if previous ≠ none ∧ previous ≠ some '/' then .error ⟨position - 1, .notAlone⟩
      else
        match after with
        | [] => return [.directories]
        | '/' :: more => do
          return .directories :: (← readFrom budget (position + 3) (some '/') more)
        | _ :: _ => .error ⟨position + 2, .notAlone⟩
    else if c = '[' then
      match bracketsOf? rest with
      | some (wildcard, count, after) => do
        return wildcard :: (← readFrom budget (position + 1 + count) (some ']') after)
      | none => .error ⟨position, .brackets⟩
    else do
      return .char c :: (← readFrom budget (position + 1) (some c) rest)

/-- Reads a pattern. -/
def read (text : List Char) : Except PatternError (List Wildcard) :=
  readFrom text.length 0 none text

/-- The parts of a pattern between slashes, where one slash at the end ends the last part. -/
def partsOf (text : List Char) : List (List Char) :=
  let parts := Text.splitAtChar '/' text
  if parts.getLast? = some [] then parts.dropLast else parts

/-- Reads the parts of a pattern, which has to be in order as a whole too. -/
def readParts (pattern : Path) : Except PatternError (List (List Wildcard)) := do
  let text := pattern.text.toList
  let _ ← read text
  (partsOf (if pattern.isAbsolute then text.drop 1 else text)).mapM read

/-! ### Finding paths -/

/-- Whether a part stands for any number of directories. -/
def isDirectories (part : List Wildcard) : Bool :=
  part == [.directories]

/-- A name in the directory at a path; names in the working directory stand alone. -/
def inside (p : Path) (name : String) : Path :=
  if p.components = [.current] then ⟨name⟩ else p.child name

/-- The names `.` and `..`, as far as a part that starts with a dot fits them; the second comes
first. -/
def dotsFitting (part : List Wildcard) : List String :=
  if part.head? = some (.char '.') then
    ["..", "."].filter fun name => Wildcard.fits part name.toList
  else []

/-- The paths below the directory at `p` that fit `parts`, names of one directory in their order.
The budget counts parts and directories. -/
def matchesBelow (fs : FileSystem) : Nat → List (List Wildcard) → Path → List Path
  | 0, _, _ => []
  | _ + 1, [], _ => []
  | budget + 1, part :: more, p =>
    let goOn := fun (rest : List (List Wildcard)) (q : Path) =>
      if rest.isEmpty then [q] else matchesBelow fs budget rest q
    let fitting := fun (pattern : List Wildcard) (rest : List (List Wildcard)) (name : String) =>
      if Wildcard.fits pattern name.toList then goOn rest (inside p name) else []
    match Wildcard.literal? part with
    | some chars =>
      let name := String.ofList chars
      let q := inside p name
      let isThere := if name = "." ∨ name = ".." then fs.isDirectory p else fs.contains q
      if isThere then goOn more q else []
    | none =>
      let names := fs.namesIn p
      if isDirectories part then
        let rest := more.dropWhile isDirectories
        names.flatMap fun name =>
          let q := inside p name
          let isDir := fs.isDirectory q
          (match rest with
            | [] => if isDir then [q] else []
            | next :: others => fitting next others name) ++
          if isDir then matchesBelow fs budget (part :: rest) q else []
      else
        (dotsFitting part).flatMap (fun name => goOn more (p.child name)) ++
          names.flatMap (fitting part more)

/-- The paths that fit a pattern. -/
def paths (fs : FileSystem) (pattern : Path) : Except PatternError (List Path) := do
  let parts ← readParts pattern
  let start : Path := if pattern.isAbsolute then ⟨"/"⟩ else ⟨"."⟩
  let budget := parts.length + (FileSystem.maxLinks + 1) * (fs.entries.size + 1)
  return matchesBelow fs budget parts start

/-- Whether a text is a pattern and not only a path. -/
def isPattern (text : String) : Bool :=
  text.toList.any ['*', '?', '['].contains

end PathPattern
end ClasspathAudit
