/-
Quoted text, as messages show it. The text stands between single
quotes, or between double quotes if it holds a single quote and no
double one, so that most texts need no escape for a quote. Every
character inside is printable: the backslash and the chosen quote are
escaped, three control characters have letters of their own, and the
remaining unprintable ones are written by code point in hexadecimal.
-/
import DepLang.Text.Printable

namespace DepLang.Text

/-- The last `width` hexadecimal digits of a number, lower case. -/
def hexDigits : Nat → Nat → List Char
  | 0, _ => []
  | width + 1, n => hexDigits width (n / 16) ++ [Nat.digitChar (n % 16)]

/-- An escape by code point, in the shortest of three widths. -/
def escapeCodePoint (c : Char) : List Char :=
  let n := c.toNat
  if n ≤ 0xFF then '\\' :: 'x' :: hexDigits 2 n
  else if n ≤ 0xFFFF then '\\' :: 'u' :: hexDigits 4 n
  else '\\' :: 'U' :: hexDigits 8 n

/-- One character as it stands between two `quote` marks. -/
def quoteChar (quote c : Char) : List Char :=
  if c = quote ∨ c = '\\' then ['\\', c]
  else if c = '\n' then ['\\', 'n']
  else if c = '\r' then ['\\', 'r']
  else if c = '\t' then ['\\', 't']
  else if isPrintable c then [c]
  else escapeCodePoint c

/-- The quotation mark that suits a text. -/
def quoteMark (text : List Char) : Char :=
  if text.contains '\x27' && !text.contains '\x22' then '\x22' else '\x27'

/-- The text in quotes. -/
def quoted (text : String) : String :=
  let chars := text.toList
  let mark := quoteMark chars
  String.ofList (mark :: chars.flatMap (quoteChar mark) ++ [mark])

end DepLang.Text
