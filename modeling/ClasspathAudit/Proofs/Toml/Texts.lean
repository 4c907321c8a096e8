import Mathlib.Data.List.TakeWhile
import Mathlib.Tactic.Common
import ClasspathAudit.Toml.Reader
import ClasspathAudit.Toml.Writer

/-
# Texts read back

A text that is written as a TOML value is read as the same text, whichever of the four forms it is
given. The forms in three quotes hold up to two quotes in a row as they are, so a reader of them
cannot tell the quotes of the text from the closing ones before it has seen the whole run: what is
read goes by the number of quotes that are waiting.
-/
namespace ClasspathAudit
namespace Toml

/-! ### Reading -/

namespace Reader

variable {α β : Type} {w v rest : List Char} {a : α} {b : β}

/-- With `w` in front of `rest`, the reader finds `a` and leaves `rest`. -/
def Reads (r : Reader α) (w : List Char) (a : α) (rest : List Char) : Prop :=
  r (w ++ rest) = some (a, rest)

lemma bind_of_some {r : Reader α} {next : α → Reader β} {chars chars' : List Char}
    (h : r chars = some (a, chars')) : (r >>= next) chars = next a chars' := by
  simp only [bind, StateT.bind, h, Option.bind_some]

lemma Reads.bind {r : Reader α} {next : α → Reader β} (h : Reads r w a (v ++ rest))
    (h' : Reads (next a) v b rest) : Reads (r >>= next) (w ++ v) b rest := by
  rw [Reads, List.append_assoc, bind_of_some h]
  exact h'

/-- The last step may be one that passes over nothing. -/
lemma Reads.bindNil {r : Reader α} {next : α → Reader β} (h : Reads r w a rest)
    (h' : Reads (next a) [] b rest) : Reads (r >>= next) w b rest := by
  rw [Reads, bind_of_some h]
  exact h'

lemma reads_pure (a : α) (rest : List Char) : Reads (pure a) [] a rest := rfl

lemma Reads.map {r : Reader α} {f : α → β} (h : Reads r w a rest) :
    Reads (do let x ← r; return f x) w (f a) rest :=
  h.bindNil (reads_pure (f a) rest)

/-- What comes next decides how to go on. -/
lemma reads_rest {next : List Char → Reader β} (h : Reads (next (w ++ rest)) w b rest) :
    Reads (Reader.rest >>= next) w b rest := h

lemma reads_skip (w rest : List Char) : Reads (skip w.length) w () rest := by
  rw [Reads, skip, List.drop_left]

lemma Reads.skipped {next : Unit → Reader β} {count : Nat} (hcount : w.length = count)
    (h : Reads (next ()) v b rest) : Reads (skip count >>= next) (w ++ v) b rest := by
  subst hcount
  exact (reads_skip w (v ++ rest)).bind h

lemma reads_expect (w rest : List Char) : Reads (expect w) w () rest := by
  have h : w.isPrefixOf (w ++ rest) = true := by simp
  rw [Reads, expect, if_pos h, List.drop_left]

lemma reads_many {p : Char → Bool} (hw : ∀ c ∈ w, p c = true)
    (hrest : ∀ c ∈ rest.head?, p c = false) : Reads (many p) w w rest := by
  have hnone : rest.takeWhile p = [] ∧ rest.dropWhile p = rest := by
    cases rest with
    | nil => exact ⟨rfl, rfl⟩
    | cons c rest =>
      have hc : p c = false := hrest c rfl
      exact ⟨List.takeWhile_cons_of_neg (by simp [hc]), List.dropWhile_cons_of_neg (by simp [hc])⟩
  rw [Reads, many, List.takeWhile_append_of_pos hw, List.dropWhile_append_of_pos hw, hnone.1,
    hnone.2, List.append_nil]

end Reader

open Reader

/-! ### Escapes -/

lemma isPlain_of_le {c : Char} (hle : 0x20 ≤ c.toNat) (hne : c.toNat ≠ 0x7F) :
    isPlain c = true := by
  simp [isPlain, hle, hne]

lemma isHexDigit_upper : ∀ d < 16, Scalar.isHexDigit (Nat.digitChar d).toUpper = true := by
  decide

lemma hexValue_upper : ∀ d < 16, hexValue (Nat.digitChar d).toUpper = d := by
  decide

/-- Four hexadecimal digits give the character back. -/
lemma reads_codePoint {c : Char} (h : c.toNat < 0x80) (rest : List Char) :
    Reads (codePoint 4) (upperHex4 c.toNat) c rest := by
  have htake : (upperHex4 c.toNat ++ rest).take 4 = upperHex4 c.toNat := by simp [upperHex4]
  have hall : (upperHex4 c.toNat).all Scalar.isHexDigit = true := by
    simp only [upperHex4, List.map_cons, List.map_nil, List.all_cons, List.all_nil, Bool.and_true,
      Bool.and_eq_true]
    exact ⟨isHexDigit_upper _ (by omega), isHexDigit_upper _ (by omega),
      isHexDigit_upper _ (by omega), isHexDigit_upper _ (by omega)⟩
  have hvalue : (upperHex4 c.toNat).foldl (fun n c => 16 * n + hexValue c) 0 = c.toNat := by
    simp only [upperHex4, List.map_cons, List.map_nil, List.foldl_cons, List.foldl_nil]
    rw [hexValue_upper _ (by omega), hexValue_upper _ (by omega), hexValue_upper _ (by omega),
      hexValue_upper _ (by omega)]
    omega
  have hvalid : c.toNat.isValidChar := c.valid
  refine reads_rest ?_
  simp only [htake]
  rw [if_pos ⟨rfl, hall⟩, hvalue, if_pos hvalid, Char.ofNat_toNat]
  exact (reads_skip (upperHex4 c.toNat) rest).bindNil (reads_pure c rest)

/-- Whether a backslash and `text` stand for `c` in double quotes, be they one or three. -/
structure IsEscape (text : List Char) (c : Char) : Prop where
  /-- It could not be a backslash at the end of a line. -/
  head : ∃ x tail, text = x :: tail ∧ isSpace x = false ∧ x ≠ '\n' ∧ x ≠ '\r'
  reads : ∀ rest, Reads escape text c rest

lemma isEscape_quote : IsEscape ['"'] '"' :=
  ⟨⟨'"', [], rfl, rfl, by decide, by decide⟩, fun _ => rfl⟩

lemma isEscape_mark : IsEscape ['\\'] '\\' :=
  ⟨⟨'\\', [], rfl, rfl, by decide, by decide⟩, fun _ => rfl⟩

lemma isEscape_code {c : Char} (h : c.toNat < 0x80) : IsEscape ('u' :: upperHex4 c.toNat) c :=
  ⟨⟨'u', _, rfl, rfl, by decide, by decide⟩, fun rest => reads_codePoint h rest⟩

lemma exists_isEscape_control {c : Char} (h : c.toNat < 0x80) :
    ∃ text, controlEscape c = '\\' :: text ∧ IsEscape text c := by
  rw [controlEscape]
  split
  · rename_i hc
    exact ⟨['b'], rfl, ⟨'b', [], rfl, rfl, by decide, by decide⟩, fun _ => hc ▸ rfl⟩
  split
  · rename_i hc
    exact ⟨['t'], rfl, ⟨'t', [], rfl, rfl, by decide, by decide⟩, fun _ => hc ▸ rfl⟩
  split
  · rename_i hc
    exact ⟨['f'], rfl, ⟨'f', [], rfl, rfl, by decide, by decide⟩, fun _ => hc ▸ rfl⟩
  split
  · rename_i hc
    exact ⟨['r'], rfl, ⟨'r', [], rfl, rfl, by decide, by decide⟩, fun _ => hc ▸ rfl⟩
  split
  · rename_i hc
    exact ⟨['n'], rfl, ⟨'n', [], rfl, rfl, by decide, by decide⟩, fun _ => hc ▸ rfl⟩
  · exact ⟨_, rfl, isEscape_code h⟩

/-! ### Characters between double quotes -/

/-- Whether `piece` stands for `c` between double quotes; with `keepsLines` a line feed stands for
itself. -/
inductive IsPiece (keepsLines : Bool) : List Char → Char → Prop
  | escape {text : List Char} {c : Char} (h : IsEscape text c) : IsPiece keepsLines ('\\' :: text) c
  | plain {c : Char} (hplain : isPlain c = true) (hquote : c ≠ '"') (hmark : c ≠ '\\') :
      IsPiece keepsLines [c] c
  | line (h : keepsLines = true) : IsPiece keepsLines ['\n'] '\n'

variable {keepsLines : Bool} {quotes run budget : Nat} {piece text w t rest : List Char} {c : Char}

/-- A character is one more quote of a run or a piece of its own, which ends the run. -/
lemma escaped_cons (quotes : Nat) (keepsLines : Bool) (run : Nat) (c : Char) (rest : List Char) :
    (c = '"' ∧ run < quotes ∧
      escaped quotes keepsLines run (c :: rest) = '"' :: escaped quotes keepsLines (run + 1) rest) ∨
    ∃ piece, IsPiece keepsLines piece c ∧
      escaped quotes keepsLines run (c :: rest) = piece ++ escaped quotes keepsLines 0 rest := by
  rw [escaped]
  split
  · rename_i hc
    subst hc
    split
    · rename_i hrun
      exact .inl ⟨rfl, hrun, rfl⟩
    · exact .inr ⟨_, .escape isEscape_quote, rfl⟩
  · rename_i hquote
    split
    · rename_i hc
      subst hc
      exact .inr ⟨_, .escape isEscape_mark, rfl⟩
    · rename_i hmark
      split
      · rename_i hc
        obtain ⟨rfl, hkeeps⟩ := hc
        exact .inr ⟨_, .line hkeeps, rfl⟩
      · split
        · rename_i hcode
          obtain ⟨text, htext, hescape⟩ := exists_isEscape_control (c := c) (by omega)
          exact .inr ⟨_, .escape hescape, by rw [htext]⟩
        · rename_i hcode
          have hplain : isPlain c = true := isPlain_of_le (by omega) (by omega)
          exact .inr ⟨[c], .plain hplain hquote hmark, rfl⟩

lemma IsPiece.reads_basicText (h : IsPiece false piece c)
    (hw : Reads (basicText budget) w t rest) :
    Reads (basicText (budget + 1)) (piece ++ w) (c :: t) rest := by
  cases h with
  | @escape text _ h =>
    refine reads_rest (Reads.skipped (w := ['\\']) (v := text ++ w) rfl ?_)
    exact (h.reads (w ++ rest)).bind hw.map
  | plain hplain hquote hmark =>
    rw [basicText]
    refine reads_rest ?_
    simp only [List.cons_append]
    rw [if_pos hplain]
    exact Reads.skipped (w := [c]) rfl hw.map
  | line h => cases h

/-- A text in double quotes, after the first one. -/
lemma reads_basicText (run : Nat) (text rest : List Char) : ∀ {budget}, text.length < budget →
    Reads (basicText budget) (escaped 0 false run text ++ ['"']) text rest := by
  induction text generalizing run with
  | nil =>
    intro budget hbudget
    obtain ⟨budget, rfl⟩ : ∃ n, budget = n + 1 := ⟨budget - 1, by simp at hbudget; omega⟩
    exact rfl
  | cons c text ih =>
    intro budget hbudget
    obtain ⟨budget, rfl⟩ : ∃ n, budget = n + 1 := ⟨budget - 1, by omega⟩
    rw [List.length_cons] at hbudget
    obtain ⟨-, hrun, -⟩ | ⟨piece, hpiece, hwritten⟩ := escaped_cons 0 false run c text
    · omega
    · rw [hwritten, List.append_assoc]
      exact hpiece.reads_basicText (ih 0 (by omega))

/-! ### Characters between three quotes -/

/-- Whether `w`, read piece by piece between three quotes, is the text `t`, where `run` quotes have
come right before. -/
inductive IsLongBody (quote : Char) (inner : Reader (List Char)) :
    Nat → List Char → List Char → Prop
  | nil {run : Nat} : IsLongBody quote inner run [] []
  | quote {run : Nat} {w t : List Char} (hrun : run < 2)
      (h : IsLongBody quote inner (run + 1) w t) :
      IsLongBody quote inner run (quote :: w) (quote :: t)
  | piece {run : Nat} {x : Char} {piece found w t : List Char} (hx : x ≠ quote)
      (hread : ∀ rest, Reads inner (x :: piece) found rest) (h : IsLongBody quote inner 0 w t) :
      IsLongBody quote inner run (x :: piece ++ w) (found ++ t)

lemma takeWhile_replicate {quote : Char} (run : Nat) (h : ∀ x ∈ rest.head?, x ≠ quote) :
    (List.replicate run quote ++ rest).takeWhile (· == quote) = List.replicate run quote := by
  have hrest : rest.takeWhile (· == quote) = [] := by
    cases rest with
    | nil => rfl
    | cons x rest => exact List.takeWhile_cons_of_neg (by simpa using h x rfl)
  have hall : ∀ x ∈ List.replicate run quote, (x == quote) = true := by
    intro x hx
    simp [List.eq_of_mem_replicate hx]
  rw [List.takeWhile_append_of_pos hall, hrest, List.append_nil]

/-- With fewer than three quotes waiting, the reader passes over them and goes on. -/
lemma reads_longText_run {quote : Char} {inner : Reader (List Char)} (hpos : 0 < run)
    (hrun : run ≤ 2) (hw : ∀ x ∈ (w ++ rest).head?, x ≠ quote)
    (h : Reads (longText quote inner budget) w t rest) :
    Reads (longText quote inner (budget + 1)) (List.replicate run quote ++ w)
      (List.replicate run quote ++ t) rest := by
  have htake := takeWhile_replicate run hw
  rw [longText]
  refine reads_rest ?_
  rw [List.append_assoc, htake, List.length_replicate]
  dsimp only
  rw [if_neg (by omega), if_pos hpos]
  exact Reads.skipped List.length_replicate h.map

lemma reads_longText_piece {quote x : Char} {inner : Reader (List Char)} {found : List Char}
    (hx : x ≠ quote) (hread : Reads inner (x :: piece) found (w ++ rest))
    (h : Reads (longText quote inner budget) w t rest) :
    Reads (longText quote inner (budget + 1)) (x :: piece ++ w) (found ++ t) rest := by
  have htake : (x :: piece ++ w ++ rest).takeWhile (· == quote) = [] :=
    List.takeWhile_cons_of_neg (by simpa using hx)
  rw [longText]
  refine reads_rest ?_
  rw [htake]
  dsimp only [List.length_nil]
  rw [if_neg (by omega), if_neg (by omega)]
  exact hread.bind h.map

/-- With three to five quotes waiting, the last three close the text. -/
lemma reads_longText_end {quote : Char} {inner : Reader (List Char)} (hrun : run ≤ 2)
    (hrest : ∀ x ∈ rest.head?, x ≠ quote) :
    Reads (longText quote inner (budget + 1)) (List.replicate run quote ++ [quote, quote, quote])
      (List.replicate run quote) rest := by
  have hall : List.replicate run quote ++ [quote, quote, quote] = List.replicate (run + 3) quote :=
    List.replicate_append_replicate (m := 3)
  have hskip := reads_skip (List.replicate (run + 3) quote) rest
  rw [longText, hall]
  refine reads_rest ?_
  rw [List.length_replicate] at hskip
  rw [takeWhile_replicate _ hrest, List.length_replicate]
  dsimp only
  rw [if_pos (by omega), if_pos (by omega), Nat.add_sub_cancel]
  exact hskip.bindNil (reads_pure _ rest)

lemma IsLongBody.reads {quote : Char} {inner : Reader (List Char)}
    (h : IsLongBody quote inner run w t) (hrest : ∀ x ∈ rest.head?, x ≠ quote) :
    ∀ {budget}, run ≤ 2 → run + w.length < budget →
      Reads (longText quote inner budget) (List.replicate run quote ++ (w ++ [quote, quote, quote]))
        (List.replicate run quote ++ t) rest := by
  induction h with
  | nil =>
    intro budget hrun hbudget
    obtain ⟨budget, rfl⟩ : ∃ n, budget = n + 1 := ⟨budget - 1, by omega⟩
    rw [List.append_nil]
    exact reads_longText_end hrun hrest
  | @quote run w t hrun' h ih =>
    intro budget hrun hbudget
    have hshift : ∀ l : List Char,
        List.replicate run quote ++ quote :: l = List.replicate (run + 1) quote ++ l := by
      intro l
      rw [List.replicate_succ', List.append_assoc, List.singleton_append]
    rw [List.cons_append, hshift, hshift]
    exact ih (by omega) (by rw [List.length_cons] at hbudget; omega)
  | @piece run x piece found w t hx hread h ih =>
    intro budget hrun hbudget
    -- a run in front of the piece takes a step of its own
    have hpiece : ∀ n, w.length < n →
        Reads (longText quote inner (n + 1)) (x :: piece ++ w ++ [quote, quote, quote]) (found ++ t)
          rest := by
      intro n hn
      have hw := @ih n (by omega) (by omega)
      rw [List.append_assoc]
      exact reads_longText_piece hx (hread _) hw
    rw [List.length_append, List.length_cons] at hbudget
    obtain ⟨budget, rfl⟩ : ∃ n, budget = n + 1 := ⟨budget - 1, by omega⟩
    rcases Nat.eq_zero_or_pos run with rfl | hpos
    · exact hpiece budget (by omega)
    · obtain ⟨budget, rfl⟩ : ∃ n, budget = n + 1 := ⟨budget - 1, by omega⟩
      refine reads_longText_run hpos hrun ?_ (hpiece budget (by omega))
      intro y hy
      obtain rfl : x = y := by simpa using hy
      exact hx

lemma reads_longCharacter_plain (h : isPlain c = true) (rest : List Char) :
    Reads longCharacter [c] [c] rest := by
  have hline : c ≠ '\n' := by
    rintro rfl
    exact absurd h (by decide)
  have hreturn : c ≠ '\r' := by
    rintro rfl
    exact absurd h (by decide)
  refine reads_rest ?_
  simp only [List.cons_append]
  split
  · rename_i heq
    exact absurd (List.cons.inj heq).1 hline
  · rename_i heq
    exact absurd (List.cons.inj heq).1 hreturn
  · rename_i heq
    obtain ⟨rfl, -⟩ := List.cons.inj heq
    rw [if_pos h]
    exact rfl
  · rename_i heq
    cases heq

/-- A piece between double quotes is one between three of them too. -/
lemma IsPiece.reads_longBasicCharacter (h : IsPiece true piece c) :
    ∃ x tail, piece = x :: tail ∧ x ≠ '"' ∧ ∀ rest, Reads longBasicCharacter piece [c] rest := by
  cases h with
  | @escape text _ h =>
    refine ⟨'\\', text, rfl, by decide, fun rest => ?_⟩
    obtain ⟨x, tail, rfl, hspace, hline, hreturn⟩ := h.head
    have hdrop : (x :: (tail ++ rest)).dropWhile isSpace = x :: (tail ++ rest) :=
      List.dropWhile_cons_of_neg (by simp [hspace])
    have hskip : Reads (do skip 1; let c ← Toml.escape; return [c]) ('\\' :: x :: tail) [c] rest :=
      Reads.skipped (w := ['\\']) rfl (h.reads rest).map
    refine reads_rest ?_
    simp only [List.cons_append, hdrop]
    split
    · rename_i heq
      exact absurd (List.cons.inj heq).1 hline
    · rename_i heq
      exact absurd (List.cons.inj heq).1 hreturn
    · exact hskip
  | plain hplain hquote hmark =>
    refine ⟨c, [], rfl, hquote, fun rest => ?_⟩
    refine reads_rest ?_
    split
    · rename_i heq
      exact absurd (List.cons.inj heq).1 hmark
    · exact reads_longCharacter_plain hplain rest
  | line h => exact ⟨'\n', [], rfl, by decide, fun rest => rfl⟩

lemma isLongBody_escaped (text : List Char) :
    ∀ run, IsLongBody '"' longBasicCharacter run (escaped 2 true run text) text := by
  induction text with
  | nil => exact fun run => .nil
  | cons c text ih =>
    intro run
    obtain ⟨rfl, hrun, hwritten⟩ | ⟨piece, hpiece, hwritten⟩ := escaped_cons 2 true run c text
    · rw [hwritten]
      exact .quote hrun (ih (run + 1))
    · obtain ⟨x, tail, rfl, hx, hread⟩ := hpiece.reads_longBasicCharacter
      rw [hwritten]
      exact .piece hx hread (ih 0)

/-! ### Texts without escapes -/

/-- Whether a text has only characters that need no escape. -/
def HasNoCodes (text : List Char) : Prop :=
  ∀ c ∈ text, needsCode c = false

lemma isPlain_of_needsCode {c : Char} (h : needsCode c = false) (hline : c ≠ '\n') :
    isPlain c = true := by
  by_cases htab : c = '\t'
  · rw [htab]
    rfl
  · have htab' : (c != '\t') = true := bne_iff_ne.2 htab
    have hline' : (c != '\n') = true := bne_iff_ne.2 hline
    rw [needsCode, htab', hline', Bool.and_true, Bool.and_true, Bool.or_eq_false_iff,
      decide_eq_false_iff_not, beq_eq_false_iff_ne] at h
    exact isPlain_of_le (by omega) h.2

lemma le_longestRun (c : Char) (text : List Char) : ∀ here, here ≤ longestRun c here text := by
  induction text with
  | nil => exact fun here => le_refl here
  | cons x text ih =>
    intro here
    rw [longestRun]
    split
    · exact (Nat.le_succ here).trans (ih (here + 1))
    · exact le_max_left _ _

lemma notMem_of_longestRun_eq_zero {text : List Char} (h : longestRun c 0 text = 0) :
    c ∉ text := by
  induction text with
  | nil => exact List.not_mem_nil
  | cons x text ih =>
    rw [longestRun] at h
    split at h
    · have hle := le_longestRun c text (0 + 1)
      omega
    · rename_i hx
      have hrest : longestRun c 0 text = 0 := by omega
      exact List.not_mem_cons_of_ne_of_not_mem (Ne.symm hx) (ih hrest)

lemma isLongBody_self (text : List Char) (hcodes : HasNoCodes text) :
    ∀ run, longestRun '\'' run text ≤ 2 → IsLongBody '\'' longCharacter run text text := by
  induction text with
  | nil => exact fun run _ => .nil
  | cons c text ih =>
    intro run hrun
    have hrest := ih fun x hx => hcodes x (List.mem_cons_of_mem c hx)
    rw [longestRun] at hrun
    split at hrun
    · rename_i hc
      subst hc
      have hle := le_longestRun '\'' text (run + 1)
      exact .quote (by omega) (hrest (run + 1) hrun)
    · rename_i hc
      have hread : ∀ rest, Reads longCharacter [c] [c] rest := by
        intro rest
        by_cases hline : c = '\n'
        · rw [hline]
          exact rfl
        · exact reads_longCharacter_plain
            (isPlain_of_needsCode (hcodes c List.mem_cons_self) hline) rest
      exact .piece hc hread (hrest 0 (by omega))

/-! ### Texts as values -/

/-- Unless two more follow the first quote, it opens a text in double quotes. -/
lemma reads_textLiteral_double {body : List Char}
    (hopen : ∀ more, body ++ rest ≠ '"' :: '"' :: more)
    (h : Reads (basicText budget) body text rest) :
    Reads (textLiteral budget) ('"' :: body) text rest := by
  refine reads_rest ?_
  simp only [List.cons_append]
  exact Reads.skipped (w := ['"']) rfl h

lemma reads_textLiteral_single {body : List Char}
    (hopen : ∀ more, body ++ rest ≠ '\'' :: '\'' :: more) (h : Reads literalText body text rest) :
    Reads (textLiteral budget) ('\'' :: body) text rest := by
  refine reads_rest ?_
  simp only [List.cons_append]
  exact Reads.skipped (w := ['\'']) rfl h

lemma append_quote_ne {quote : Char} {body : List Char} (hbody : quote ∉ body)
    (hrest : rest.head? ≠ some quote) (more : List Char) :
    body ++ [quote] ++ rest ≠ quote :: quote :: more := by
  intro h
  cases body with
  | nil =>
    obtain rfl : rest = quote :: more := (List.cons.inj h).2
    exact hrest rfl
  | cons c body =>
    obtain rfl : c = quote := (List.cons.inj h).1
    exact hbody List.mem_cons_self

lemma reads_literalText (hplain : ∀ c ∈ text, isPlain c = true) (hquote : '\'' ∉ text)
    (rest : List Char) : Reads literalText (text ++ ['\'']) text rest := by
  have hall : ∀ c ∈ text, (isPlain c && c != '\'') = true := by
    intro c hc
    have hne : c ≠ '\'' := fun h => hquote (h ▸ hc)
    rw [hplain c hc, bne_iff_ne.2 hne, Bool.and_self]
  have hmany : Reads (many fun c => isPlain c && c != '\'') text text ('\'' :: rest) :=
    reads_many hall fun c hc => by
      obtain rfl : '\'' = c := by simpa using hc
      rfl
  exact hmany.bind (reads_expect ['\''] rest).map

/-- Whether characters start with one that could belong to a line break. -/
def StartsBreak (chars : List Char) : Prop :=
  chars.head? = some '\n' ∨ chars.head? = some '\r'

/-- A line break follows the quotes if the text has one, and is passed over. -/
lemma reads_firstLineEnd {hasLines : Bool} (h : hasLines = false → ¬StartsBreak rest) :
    Reads firstLineEnd (if hasLines then ['\n'] else []) () rest := by
  cases hasLines with
  | true => exact rfl
  | false =>
    rw [if_neg Bool.false_ne_true]
    cases rest with
    | nil => exact rfl
    | cons x rest =>
      have hline : x ≠ '\n' := fun hx => h rfl (.inl (congrArg some hx))
      have hreturn : x ≠ '\r' := fun hx => h rfl (.inr (congrArg some hx))
      have hnone : Reads lineEnd [] false (x :: rest) := by
        refine reads_rest ?_
        split
        · rename_i heq
          exact absurd (List.cons.inj heq).1 hline
        · rename_i heq
          exact absurd (List.cons.inj heq).1 hreturn
        · exact reads_pure false _
      exact hnone.map (f := fun _ => ())

lemma IsLongBody.reads_closed {quote : Char} {inner : Reader (List Char)} {hasLines : Bool}
    (h : IsLongBody quote inner 0 w text) (hrest : rest.head? ≠ some quote)
    (hbreak : hasLines = false → ¬StartsBreak (w ++ quote :: [quote, quote] ++ rest))
    (hbudget : w.length < budget) :
    Reads (do skip 3; firstLineEnd; longText quote inner budget)
      (longQuotes quote hasLines ++ w ++ longQuotes quote false) text rest := by
  have hne : ∀ x ∈ rest.head?, x ≠ quote := by
    rintro x hx rfl
    exact hrest hx
  have hbody : Reads (longText quote inner budget) (w ++ [quote, quote, quote]) text rest :=
    h.reads hne (Nat.zero_le 2) (by omega)
  have hclose : longQuotes quote false = [quote, quote, quote] := rfl
  rw [hclose, longQuotes, List.append_assoc, List.append_assoc]
  exact Reads.skipped rfl ((reads_firstLineEnd hbreak).bind hbody)

/-! ### The forms -/

lemma not_startsBreak_of_isPlain {x : Char} (h : isPlain x = true) (more : List Char) :
    ¬StartsBreak (x :: more) := by
  rintro (hx | hx) <;> obtain rfl := Option.some.inj hx <;> exact absurd h (by decide)

lemma not_startsBreak_escaped (hline : '\n' ∉ text) (more : List Char) :
    ¬StartsBreak (escaped 2 true 0 text ++ '"' :: more) := by
  cases text with
  | nil => exact not_startsBreak_of_isPlain rfl more
  | cons c text =>
    obtain ⟨rfl, -, hwritten⟩ | ⟨piece, hpiece, hwritten⟩ := escaped_cons 2 true 0 c text
    · rw [hwritten]
      exact not_startsBreak_of_isPlain rfl _
    · rw [hwritten]
      cases hpiece with
      | escape => exact not_startsBreak_of_isPlain rfl _
      | plain hplain => exact not_startsBreak_of_isPlain hplain _
      | line => exact absurd List.mem_cons_self hline

/-- Characters that a value may stand in front of. -/
structure EndsText (rest : List Char) : Prop where
  double : rest.head? ≠ some '"'
  single : rest.head? ≠ some '\''

lemma reads_written_basic (hrest : EndsText rest) (hbudget : text.length < budget) :
    Reads (textLiteral budget) ('"' :: escaped 0 false 0 text ++ ['"']) text rest := by
  have hopen : ∀ more, escaped 0 false 0 text ++ ['"'] ++ rest ≠ '"' :: '"' :: more := by
    intro more
    cases text with
    | nil => exact append_quote_ne List.not_mem_nil hrest.double more
    | cons c text =>
      obtain ⟨-, hrun, -⟩ | ⟨piece, hpiece, hwritten⟩ := escaped_cons 0 false 0 c text
      · omega
      · rw [hwritten]
        intro h
        cases hpiece with
        | escape => exact absurd (List.cons.inj h).1 (by decide)
        | plain _ hquote => exact hquote (List.cons.inj h).1
        | line hkeeps => cases hkeeps
  exact reads_textLiteral_double hopen (reads_basicText 0 text rest hbudget)

lemma reads_written_literal (hcodes : HasNoCodes text) (hline : '\n' ∉ text)
    (hquote : '\'' ∉ text) (hrest : EndsText rest) :
    Reads (textLiteral budget) ('\'' :: text ++ ['\'']) text rest := by
  have hplain : ∀ c ∈ text, isPlain c = true := fun c hc =>
    isPlain_of_needsCode (hcodes c hc) fun h => hline (h ▸ hc)
  exact reads_textLiteral_single (append_quote_ne hquote hrest.single)
    (reads_literalText hplain hquote rest)

lemma reads_written_longBasic (hrest : EndsText rest)
    (hbudget : (escaped 2 true 0 text).length < budget) :
    Reads (textLiteral budget)
      (longQuotes '"' (text.contains '\n') ++ escaped 2 true 0 text ++ longQuotes '"' false) text
      rest := by
  refine (isLongBody_escaped text 0).reads_closed hrest.double ?_ hbudget
  intro hlines
  have hline : '\n' ∉ text := by simpa using hlines
  rw [List.append_assoc]
  exact not_startsBreak_escaped hline _

lemma reads_written_longLiteral (hcodes : HasNoCodes text) (hruns : longestRun '\'' 0 text ≤ 2)
    (hrest : EndsText rest) (hbudget : text.length < budget) :
    Reads (textLiteral budget)
      (longQuotes '\'' (text.contains '\n') ++ text ++ longQuotes '\'' false) text rest := by
  refine (isLongBody_self text hcodes 0 hruns).reads_closed hrest.single ?_ hbudget
  intro hlines
  have hline : '\n' ∉ text := by simpa using hlines
  cases text with
  | nil => exact not_startsBreak_of_isPlain rfl _
  | cons c text =>
    have hne : c ≠ '\n' := fun h => hline (h ▸ List.mem_cons_self)
    exact not_startsBreak_of_isPlain (isPlain_of_needsCode (hcodes c List.mem_cons_self) hne) _

lemma length_le_escaped (quotes : Nat) (keepsLines : Bool) (text : List Char) :
    ∀ run, text.length ≤ (escaped quotes keepsLines run text).length := by
  induction text with
  | nil => exact fun run => Nat.zero_le _
  | cons c text ih =>
    intro run
    obtain ⟨-, -, hwritten⟩ | ⟨piece, hpiece, hwritten⟩ := escaped_cons quotes keepsLines run c text
    · rw [hwritten, List.length_cons, List.length_cons]
      have hle := ih (run + 1)
      omega
    · have hle := ih 0
      have hpos : 0 < piece.length := by
        cases hpiece <;> exact Nat.succ_pos _
      rw [hwritten, List.length_append, List.length_cons]
      omega

/-- The forms, and what a text must be like to have one of those without escapes. -/
lemma written_cases (text : List Char) :
    written text = '"' :: escaped 0 false 0 text ++ ['"'] ∨
    (HasNoCodes text ∧ '\n' ∉ text ∧ '\'' ∉ text ∧ written text = '\'' :: text ++ ['\'']) ∨
    written text =
      longQuotes '"' (text.contains '\n') ++ escaped 2 true 0 text ++ longQuotes '"' false ∨
    (HasNoCodes text ∧ longestRun '\'' 0 text ≤ 2 ∧
      written text = longQuotes '\'' (text.contains '\n') ++ text ++ longQuotes '\'' false) := by
  have hcodes : (!text.any needsCode) = true → HasNoCodes text := by
    intro h c hc
    rw [Bool.not_eq_true', List.any_eq_false] at h
    exact Bool.eq_false_iff.2 (h c hc)
  rw [written]
  split
  · exact .inl rfl
  split
  · rename_i h
    simp only [Bool.and_eq_true, beq_iff_eq] at h
    obtain ⟨⟨hnone, hsingle⟩, hlines⟩ := h
    have hline : '\n' ∉ text := by simpa using hlines
    exact .inr (.inl ⟨hcodes hnone, hline, notMem_of_longestRun_eq_zero hsingle, rfl⟩)
  split
  · exact .inr (.inr (.inl rfl))
  split
  · rename_i h
    simp only [Bool.and_eq_true, decide_eq_true_eq] at h
    exact .inr (.inr (.inr ⟨hcodes h.1, h.2, rfl⟩))
  split
  · exact .inr (.inr (.inl rfl))
  · exact .inl rfl

lemma exists_written_eq_cons (text : List Char) :
    ∃ more, written text = '"' :: more ∨ written text = '\'' :: more := by
  obtain h | ⟨-, -, -, h⟩ | h | ⟨-, -, h⟩ := written_cases text
  · exact ⟨_, .inl h⟩
  · exact ⟨_, .inr h⟩
  · exact ⟨_, .inl h⟩
  · exact ⟨_, .inr h⟩

/-- A text is read back from the form that is chosen for it. -/
lemma reads_written (text : List Char) (hrest : EndsText rest)
    (hbudget : (written text).length ≤ budget) :
    Reads (textLiteral budget) (written text) text rest := by
  obtain h | ⟨hcodes, hline, hquote, h⟩ | h | ⟨hcodes, hruns, h⟩ := written_cases text
  · have hle := length_le_escaped 0 false text 0
    rw [h] at hbudget ⊢
    simp only [List.length_append, List.length_cons, List.length_nil] at hbudget
    exact reads_written_basic hrest (by omega)
  · rw [h]
    exact reads_written_literal hcodes hline hquote hrest
  · rw [h] at hbudget ⊢
    simp only [longQuotes, List.length_append, List.length_cons, List.length_nil] at hbudget
    exact reads_written_longBasic hrest (by omega)
  · rw [h] at hbudget ⊢
    simp only [longQuotes, List.length_append, List.length_cons, List.length_nil] at hbudget
    exact reads_written_longLiteral hcodes hruns hrest (by omega)

end Toml
end ClasspathAudit
