import Nes.Text.Glyph

/-!
# Quoted text

Text from outside is shown between double quotes in such a form that it stays on one line and every
character can be told: quotes and backslashes are escaped, the common control characters have short
names, and any other character without a glyph is written by its number in lower-case hexadecimal.

## Main definitions

* `Quoted.escape`: how one character is written.
* `Quoted.quote`: a whole text between quotes.
-/

namespace Nes.Quoted

/-- A code point in lower-case hexadecimal, in as few digits as it needs. -/
def codePoint (c : Char) : List Char := Nat.toDigits 16 c.toNat

/-- How a character is written between double quotes. -/
def escape (c : Char) : List Char :=
  if c = '"' then ['\\', '"']
  else if c = '\\' then ['\\', '\\']
  else if c = '\n' then ['\\', 'n']
  else if c = '\r' then ['\\', 'r']
  else if c = '\t' then ['\\', 't']
  else if c = '\x00' then ['\\', '0']
  else if Glyph.hidden c then ['\\', 'u', '\x7b'] ++ codePoint c ++ ['\x7d']
  else [c]

/-- A text between double quotes. -/
def quote (text : String) : String :=
  String.ofList ('"' :: text.toList.flatMap escape ++ ['"'])

end Nes.Quoted
