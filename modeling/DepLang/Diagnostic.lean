/-
Diagnostics. A parse failure says what went wrong, where, and which
constructs would have been accepted there. Of two failures the one that
got further is the more telling; at the same position both are right,
and the merged failure keeps the first one's complaint and every
expectation once. Merging is how alternatives report: the result speaks
for all that were tried.

What stops a reading otherwise is a defect. A notice is the plain
diagnostic of the later phases: a message and a span.
-/
import DepLang.Fixity
import DepLang.Text.Digit
import DepLang.Token

namespace DepLang

/-- Where a text came from: its file, and the text if it is at hand. -/
structure Origin where
  filename : String
  text : Option String
  deriving DecidableEq, Inhabited

/-- The name of a text that did not come from a file. -/
def Origin.unnamed : String := "(input)"

-- ======================================================== failures

/-- What is wrong. -/
inductive Complaint where
  /-- A lexeme that no rule accepts here. -/
  | unexpected (lexeme : Lexeme)
  /-- An operator that groups differently from its neighbour. -/
  | ambiguous (assoc : Assoc)
  /-- A character that starts no token. -/
  | strayCharacter (c : Char)
  /-- A block comment that the end of the text cuts off. -/
  | unterminatedComment
  /-- A complaint in the words of the rule that makes it. -/
  | custom (message : String)
  deriving DecidableEq, Inhabited

/-- The complaint in words. -/
def Complaint.message : Complaint → String
  | .unexpected lexeme => "unexpected " ++ lexeme.phrase
  | .ambiguous assoc =>
    "ambiguous use of a " ++ assoc.adjective ++ " associative operator"
  | .strayCharacter c =>
    "lexical error: unexpected character "
      ++ Text.quoted (String.singleton c)
  | .unterminatedComment => "lexical error: unterminated block comment"
  | .custom message => message

/-- A parse failure. -/
structure Failure where
  complaint : Complaint
  span : Span
  expected : List String
  origin : Origin
  deriving DecidableEq, Inhabited

namespace Failure

/-- The failure that got further; at one position the first, with the
expectations that only the second has after its own. -/
def merge (e f : Failure) : Failure :=
  if e.span.start < f.span.start then f
  else if f.span.start < e.span.start then e
  else
    { e with
      expected := e.expected ++ f.expected.filter (· ∉ e.expected) }

/-- The furthest failure, now that one more is met. -/
def further (best : Option Failure) (e : Failure) : Failure :=
  match best with
  | none => e
  | some f => f.merge e

/-- Alternatives in words: `a`, `a or b`, `a, b or c`. -/
def alternatives : List String → String
  | [] => ""
  | [x] => x
  | [x, y] => x ++ " or " ++ y
  | x :: rest => x ++ ", " ++ alternatives rest

/-- The complaint, and what was expected in its place. -/
def reason (e : Failure) : String :=
  match e.expected with
  | [] => e.complaint.message
  | xs => e.complaint.message ++ "; expected " ++ alternatives xs

/-- The place of the failure: by line and column if the text is at
hand, by offset otherwise. -/
def place (e : Failure) : String :=
  match e.origin.text with
  | none => e.origin.filename ++ " @ " ++ e.span.start.repr
  | some text =>
    e.origin.filename ++ ": line " ++ (e.span.line text).repr
      ++ ", column " ++ (e.span.column text).repr

/-- The failure as it is reported. -/
def toString (e : Failure) : String := e.place ++ ": " ++ e.reason

instance : ToString Failure := ⟨Failure.toString⟩

end Failure

-- ========================================================= defects

/-- What stops a reading without a failure to report: an error in a
parser or in the description of the language, which no text is to blame
for, or a number that is too long to have a value. -/
inductive Defect where
  /-- A choice without alternatives. -/
  | emptyChoice
  /-- More nested expressions than there are tokens. -/
  | nestedTooDeep
  /-- Tokens that do not end with the end of the input. -/
  | unendedTokens
  /-- A number with more digits than are converted. -/
  | overlongNumber (digits : Nat)
  /-- A language that no lexer can be built for. -/
  | unbuildableLexer
  deriving DecidableEq, Inhabited

/-- The defect in words. -/
def Defect.message : Defect → String
  | .emptyChoice => "choice needs at least one alternative"
  | .nestedTooDeep => "expression nested deeper than the input is long"
  | .unendedTokens => "token list must end with EOF"
  | .overlongNumber digits =>
    "Exceeds the limit (" ++ Text.digitLimit.repr
      ++ " digits) for integer string conversion: value has "
      ++ digits.repr
      ++ " digits; use sys.set_int_max_str_digits() to increase the limit"
  | .unbuildableLexer => "Can't build lexer"

/-- Why a reading stopped. -/
inductive Stop where
  | failure (failure : Failure)
  | defect (defect : Defect)
  deriving DecidableEq

-- ========================================================= notices

/-- A message about a span of text. -/
structure Notice where
  message : String
  span : Span
  text : Option String
  deriving DecidableEq, Inhabited

/-- The notice as it is reported, with the text it is about if that is
at hand. -/
def Notice.toString (n : Notice) : String :=
  let place :=
    n.message ++ " @ " ++ n.span.start.repr ++ ":" ++ n.span.stop.repr
  match n.text with
  | none => place
  | some text => place ++ ": " ++ Text.quoted (n.span.slice text)

instance : ToString Notice := ⟨Notice.toString⟩

end DepLang
