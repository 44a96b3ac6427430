/-
Tokens: lexemes with the span they were read from. A lexeme is the
whole content of a token; its kind is what a grammar rule asks for when
any lexeme of the kind will do.

A mark (a bracket, a separator, a hole) is told by its kind alone, and
so is the end of the input. Their spelling is for messages: the lexer
writes each mark in one way, but rules never look at it, and tokens
from another hand may spell their marks as they like.
-/
import DepLang.Span
import DepLang.Text.Quoted

namespace DepLang

/-- The marks: lexemes that mean what they are. -/
inductive Mark where
  | quote
  | hole
  | lparen
  | rparen
  | lbrace
  | rbrace
  | lbracket
  | rbracket
  | comma
  | semicolon
  deriving DecidableEq, Inhabited

/-- How source text writes a mark. -/
def Mark.spelling : Mark → String
  | .quote => "!["
  | .hole => "_"
  | .lparen => "("
  | .rparen => ")"
  | .lbrace => "\x7b"
  | .rbrace => "\x7d"
  | .lbracket => "["
  | .rbracket => "]"
  | .comma => ","
  | .semicolon => ";"

/-- The kinds of lexeme. -/
inductive TokenKind where
  | ident
  | reserved
  | natural
  | operator
  | mark (mark : Mark)
  | eof
  deriving DecidableEq, Inhabited

/-- How a message names what a rule asked for. -/
def TokenKind.phrase : TokenKind → String
  | .ident => "identifier"
  | .reserved => "reserved word"
  | .natural => "natural number"
  | .operator => "operator"
  | .mark m => "\"" ++ m.spelling ++ "\""
  | .eof => "end of input"

/-- A lexeme: a word, a number, an operator, a mark as it is spelled,
or the end of the input. -/
inductive Lexeme where
  | ident (word : String)
  | reserved (word : String)
  | natural (value : Nat)
  | operator (symbol : String)
  | mark (mark : Mark) (spelling : String)
  | eof (spelling : String)
  deriving DecidableEq, Inhabited

namespace Lexeme

/-- The mark as source text writes it. -/
def ofMark (m : Mark) : Lexeme := .mark m m.spelling

/-- The kind of a lexeme. -/
def kind : Lexeme → TokenKind
  | .ident _ => .ident
  | .reserved _ => .reserved
  | .natural _ => .natural
  | .operator _ => .operator
  | .mark m _ => .mark m
  | .eof _ => .eof

/-- The text of a lexeme; a number's is its shortest numeral. -/
def text : Lexeme → String
  | .ident word | .reserved word => word
  | .natural value => value.repr
  | .operator symbol => symbol
  | .mark _ spelling | .eof spelling => spelling

/-- How a message names a lexeme that was found. -/
def phrase : Lexeme → String
  | .eof _ => TokenKind.eof.phrase
  | l => Text.quoted l.text

end Lexeme

/-- A lexeme and where it stands. -/
structure Token where
  lexeme : Lexeme
  span : Span
  deriving DecidableEq, Inhabited

/-- The kind of a token's lexeme. -/
def Token.kind (t : Token) : TokenKind := t.lexeme.kind

/-- The text of a token's lexeme. -/
def Token.text (t : Token) : String := t.lexeme.text

end DepLang
