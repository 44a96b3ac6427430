/-
Lexing. At every position the text is read by the first scanner that
accepts it: blanks, comments and newlines make gaps, the others make
tokens. Numbers and operators go as far as their class of characters
does, and words as far as their pattern takes them. The scan ends with
one token for the end of the input.

A character that starts nothing and a comment that is not closed are
failures of the text. A number with too many digits is none, and neither
is a language that no lexer can be built for.
-/
import DepLang.Diagnostic
import DepLang.Language
import DepLang.Text.Digit

namespace DepLang.Lexer

/-- What is wrong where the lexer stops. -/
inductive Flaw where
  | complaint (complaint : Complaint)
  | defect (defect : Defect)

/-- What stands at the head of a text: a gap, a lexeme, either with its
width, or something that is neither. -/
inductive Piece where
  | gap (width : Nat)
  | lexeme (lexeme : Lexeme) (width : Nat)
  | flaw (flaw : Flaw)

variable (lang : Language) (rules : Rules)

-- ============================================================ gaps

/-- Blanks are space, tab, carriage return and form feed. -/
def isBlank (c : Char) : Bool :=
  c == ' ' || c == '\t' || c == '\r' || c == '\x0c'

/-- A blank at the head of the text. -/
def blank? : List Char → Option Piece
  | c :: _ => if isBlank c then some (.gap 1) else none
  | [] => none

/-- A line comment runs to the end of its line. -/
def lineComment? (text : List Char) : Option Piece :=
  let opening := lang.lineComment.toList
  if opening.isPrefixOf text then
    let body := (text.drop opening.length).takeWhile (· ≠ '\n')
    some (.gap (opening.length + body.length))
  else none

/-- The width of what is left of a block comment that is `depth` deep,
up to and with the mark that closes it; nothing if it is never closed.
Where both marks fit, the closing one counts. -/
def commentWidth (opening closing : List Char) (nested : Bool) :
    Nat → List Char → Option Nat
  | 0, _ => some 0
  | _ + 1, [] => none
  | depth + 1, c :: rest =>
    if closing.isPrefixOf (c :: rest) then
      (commentWidth opening closing nested depth
        ((c :: rest).drop closing.length)).map (closing.length + ·)
    else if nested && opening.isPrefixOf (c :: rest) then
      (commentWidth opening closing nested (depth + 2)
        (rest.drop (opening.length - 1))).map (opening.length + ·)
    else
      (commentWidth opening closing nested (depth + 1) rest).map (1 + ·)
termination_by depth text => 2 * text.length + depth
decreasing_by
  all_goals simp only [List.length_cons, List.length_drop]
  all_goals omega

/-- A block comment runs to the mark that closes it. -/
def blockComment? (text : List Char) : Option Piece :=
  let opening := lang.blockOpen.toList
  if opening.isPrefixOf text then
    match commentWidth opening lang.blockClose.toList lang.nestedBlocks
        1 (text.drop opening.length) with
    | some width => some (.gap (opening.length + width))
    | none => some (.flaw (.complaint .unterminatedComment))
  else none

/-- A run of newlines. -/
def newlines? (text : List Char) : Option Piece :=
  match text.takeWhile (· = '\n') with
  | [] => none
  | run => some (.gap run.length)

-- ========================================================== tokens

/-- The mark that opens a quotation. -/
def quote? : List Char → Option Piece
  | '!' :: '[' :: _ => some (.lexeme (.ofMark .quote) 2)
  | _ => none

/-- A number by its digits, if there are not too many of them. -/
def number (run : List Char) : Piece :=
  if run.length ≤ Text.digitLimit then
    .lexeme (.natural (Text.numeralValue run)) run.length
  else .flaw (.defect (.overlongNumber run.length))

/-- A number: a run of digits, of any script. -/
def natural? (text : List Char) : Option Piece :=
  match text.takeWhile Text.isDigit with
  | [] => none
  | run => some (number run)

/-- A word: an identifier unless it is reserved. -/
def word? (text : List Char) : Option Piece :=
  (rules.word.width? text).map fun width =>
    let word := String.ofList (text.take width)
    .lexeme
      (if rules.isReservedWord word then .reserved word else .ident word)
      width

/-- A hole. -/
def hole? : List Char → Option Piece
  | '_' :: _ => some (.lexeme (.ofMark .hole) 1)
  | _ => none

/-- An operator: a run of operator letters. -/
def operator? (text : List Char) : Option Piece :=
  match text.takeWhile lang.isOperatorLetter with
  | [] => none
  | run => some (.lexeme (.operator (String.ofList run)) run.length)

/-- A bracket or a separator. -/
def mark? : List Char → Option Piece
  | '(' :: _ => some (.lexeme (.ofMark .lparen) 1)
  | ')' :: _ => some (.lexeme (.ofMark .rparen) 1)
  | '\x7b' :: _ => some (.lexeme (.ofMark .lbrace) 1)
  | '\x7d' :: _ => some (.lexeme (.ofMark .rbrace) 1)
  | '[' :: _ => some (.lexeme (.ofMark .lbracket) 1)
  | ']' :: _ => some (.lexeme (.ofMark .rbracket) 1)
  | ',' :: _ => some (.lexeme (.ofMark .comma) 1)
  | ';' :: _ => some (.lexeme (.ofMark .semicolon) 1)
  | _ => none

-- ============================================================ scan

/-- The piece at the head of a text that starts with `c`: the first
scanner that accepts the text decides. -/
def pieceAt (c : Char) (rest : List Char) : Piece :=
  let text := c :: rest
  let found :=
    blank? text <|> lineComment? rules.toLanguage text
      <|> blockComment? rules.toLanguage text <|> newlines? text
      <|> quote? text <|> natural? text <|> word? rules text
      <|> hole? text <|> operator? rules.toLanguage text <|> mark? text
  found.getD (.flaw (.complaint (.strayCharacter c)))

/-- The tokens of a text that starts at offset `pos`, or what is wrong
with the first piece that is neither gap nor token, with its offset. -/
def scan (pos : Nat) : List Char → Except (Flaw × Nat) (List Token)
  | [] => .ok [⟨.eof "", ⟨pos, pos⟩⟩]
  | c :: rest =>
    match pieceAt rules c rest with
    | .gap width => scan (pos + width) (rest.drop (width - 1))
    | .lexeme lexeme width =>
      match scan (pos + width) (rest.drop (width - 1)) with
      | .ok tokens => .ok (⟨lexeme, ⟨pos, pos + width⟩⟩ :: tokens)
      | .error flaw => .error flaw
    | .flaw flaw => .error (flaw, pos)
termination_by text => text.length
decreasing_by
  all_goals simp only [List.length_cons, List.length_drop]
  all_goals omega

/-- What a lexical complaint had expected instead. -/
def expectedBy : Complaint → List String
  | .unterminatedComment => ["end of comment"]
  | _ => []

/-- What stops the reading of a text with a flaw at an offset. -/
def Flaw.stop (flaw : Flaw) (pos : Nat) (origin : Origin) : Stop :=
  match flaw with
  | .complaint c =>
    .failure
      { complaint := c
        span := ⟨pos, pos + 1⟩
        expected := expectedBy c
        origin }
  | .defect d => .defect d

/-- The tokens of a text, the last one being the end of the input. -/
def tokenize (text filename : String) : Except Stop (List Token) :=
  match lang.rules? with
  | none => .error (.defect .unbuildableLexer)
  | some rules =>
    match scan rules 0 text.toList with
    | .ok tokens => .ok tokens
    | .error (flaw, pos) => .error (flaw.stop pos ⟨filename, some text⟩)

end DepLang.Lexer
