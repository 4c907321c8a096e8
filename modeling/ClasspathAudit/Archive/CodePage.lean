import ClasspathAudit.Text

/-
# Code page 437

The character set in which archives name their entries unless they say otherwise: ASCII in the lower
half, letters with accents, box-drawing characters and a few signs in the upper half.
-/
namespace ClasspathAudit
namespace CodePage

/-- The characters of the bytes from `0x80` on, in order. -/
def upperHalf : Array Char :=
  ("ÇüéâäàåçêëèïîìÄÅÉæÆôöòûùÿÖÜ¢£¥₧ƒ" ++
    "áíóúñÑªº¿⌐¬½¼¡«»░▒▓│┤╡╢╖╕╣║╗╝╜╛┐" ++
    "└┴┬├─┼╞╟╚╔╩╦╠═╬╧╨╤╥╙╘╒╓╫╪┘┌█▄▌▐▀" ++
    "αßΓπΣσµτΦΘΩδ∞φε∩≡±≥≤⌠⌡÷≈°∙·√ⁿ²■\u00a0").toList.toArray

/-- The character of a byte. -/
def character (b : UInt8) : Char :=
  if b.toNat < 0x80 then Char.ofNat b.toNat else upperHalf.getD (b.toNat - 0x80) '\uFFFD'

/-- The text that bytes spell. -/
def decode (bytes : List UInt8) : String :=
  String.ofList (bytes.map character)

end CodePage
end ClasspathAudit
