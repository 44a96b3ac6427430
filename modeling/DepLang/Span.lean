/-
Spans of source text and the positions they start at. Offsets count
characters from zero. A span may reach past the end of a text, or end
before it starts: looking it up clips it, and its line and column are
defined all the same.
-/

namespace DepLang

/-- A stretch of text from `start` up to, not including, `stop`. -/
structure Span where
  start : Nat
  stop : Nat
  deriving DecidableEq, Inhabited

namespace Span

/-- From the start of one span to the end of another. -/
def through (s t : Span) : Span := ⟨s.start, t.stop⟩

/-- The part of the text that the span covers. -/
def slice (s : Span) (text : String) : String :=
  String.ofList ((text.toList.take s.stop).drop s.start)

-- ================================================= line and column

/-- What stands before the span's start. -/
def before (s : Span) (text : String) : List Char :=
  text.toList.take s.start

/-- The line of the span's start, counted from one: a newline ends the
line it stands on. -/
def line (s : Span) (text : String) : Nat :=
  (s.before text).count '\n' + 1

/-- The offset at which the line of the span's start begins. -/
def lineStart (s : Span) (text : String) : Nat :=
  let before := s.before text
  before.length - (before.reverse.takeWhile (· ≠ '\n')).length

/-- The column of the span's start, counted from one. Past the end of
the text the last line goes on. -/
def column (s : Span) (text : String) : Nat :=
  s.start - s.lineStart text + 1

end Span

end DepLang
