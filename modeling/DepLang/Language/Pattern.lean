/-
Patterns: the regular expressions that describe words. A pattern reads
the head of a text, and where it can do so in several ways they are
tried in order: the first alternative before the second, and one more
round of a repetition before none. The first way that what comes behind
the pattern can go on from counts. So a word need not be the longest
that its pattern could read.

A round of a repetition that takes nothing is the last one.
-/
import DepLang.Language.CharClass

namespace DepLang

/-- A pattern. -/
inductive Pattern where
  | empty
  | set (cls : CharClass)
  | seq (first second : Pattern)
  | alt (first second : Pattern)
  | star (body : Pattern)
  deriving DecidableEq

namespace Pattern

/-- Repeats a step as often as it goes, and fewer times where what comes
next does not accept what is left. The fuel bounds the rounds; it is
enough if it exceeds the length of the text. -/
def rounds {α : Type}
    (once : (List Char → Option α) → List Char → Option α)
    (next : List Char → Option α) : Nat → List Char → Option α
  | 0, _ => none
  | fuel + 1, text =>
    let again (rest : List Char) : Option α :=
      if rest.length < text.length then rounds once next fuel rest
      else next rest
    once again text <|> next text

/-- Reads the head of a text, in the first way in which what comes next
accepts what is left. -/
def run {α : Type} :
    Pattern → (List Char → Option α) → List Char → Option α
  | .empty, next, text => next text
  | .set _, _, [] => none
  | .set cls, next, c :: rest =>
    if cls.contains c then next rest else none
  | .seq p q, next, text => p.run (q.run next) text
  | .alt p q, next, text => p.run next text <|> q.run next text
  | .star p, next, text => rounds p.run next (text.length + 1) text

/-- How much of a text the pattern reads. -/
def width? (p : Pattern) (text : List Char) : Option Nat :=
  p.run (fun rest => some (text.length - rest.length)) text

/-- Can the pattern read the text to its end? -/
def accepts (p : Pattern) (text : List Char) : Bool :=
  (p.run (fun rest => if rest.isEmpty then some () else none) text).isSome

end Pattern

end DepLang
