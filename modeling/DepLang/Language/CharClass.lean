/-
Character classes: characters, ranges of them and the kinds that have a
name of their own, or all characters but these.
-/
import DepLang.Text.Alphanumeric
import DepLang.Text.Digit
import DepLang.Text.Space

namespace DepLang

/-- The kinds of characters that an escape can name. -/
inductive CharKind where
  | digit
  | word
  | space
  deriving DecidableEq

/-- Is the character of the kind? -/
def CharKind.contains : CharKind → Char → Bool
  | .digit, c => Text.isDigit c
  | .word, c => Text.isAlphanumeric c || c == '_'
  | .space, c => Text.isSpace c

namespace CharClass

/-- What a class can list: a range with both ends included, or what is,
or is not, of a kind. -/
inductive Member where
  | range (first last : Char)
  | kind (kind : CharKind) (negated : Bool)
  deriving DecidableEq

/-- Is the character among those that the member stands for? -/
def Member.contains : Member → Char → Bool
  | .range first last, c => first ≤ c && c ≤ last
  | .kind k negated, c => k.contains c != negated

/-- A character by itself. -/
def Member.char (c : Char) : Member := .range c c

end CharClass

/-- A class of characters: those of its members, or all others. -/
structure CharClass where
  members : List CharClass.Member := []
  negated : Bool := false
  deriving DecidableEq

namespace CharClass

/-- Is the character in the class? -/
def contains (cls : CharClass) (c : Char) : Bool :=
  (cls.members.any fun m => m.contains c) != cls.negated

/-- The class with one member more. -/
def add (cls : CharClass) (m : Member) : CharClass :=
  { cls with members := cls.members ++ [m] }

/-- The class of one character. -/
def char (c : Char) : CharClass := { members := [.char c] }

/-- The class of one kind of characters, or of all the others. -/
def kind (k : CharKind) (negated : Bool) : CharClass :=
  { members := [.kind k negated] }

/-- All characters but the newline. -/
def any : CharClass := { members := [.char '\n'], negated := true }

end CharClass

end DepLang
