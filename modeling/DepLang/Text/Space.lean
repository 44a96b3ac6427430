/-
Whitespace: the characters that only keep words apart.
-/
import DepLang.Text.CodePoints

namespace DepLang.Text

/-- The whitespace of Unicode, and the separators of ASCII. -/
def spaceRuns : CodePoints :=
  [(0x9, 0xD, 1), (0x1C, 0x20, 1), (0x85, 0x85, 1), (0xA0, 0xA0, 1),
   (0x1680, 0x1680, 1), (0x2000, 0x200A, 1), (0x2028, 0x2029, 1),
   (0x202F, 0x202F, 1), (0x205F, 0x205F, 1), (0x3000, 0x3000, 1)]

/-- Is the character whitespace? -/
def isSpace (c : Char) : Bool := spaceRuns.contains c.toNat

end DepLang.Text
