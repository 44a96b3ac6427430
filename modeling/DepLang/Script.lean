/-
Parsing scripts. A script is a parser written down as data: the
primitives, the combinators, the declarations and the rules of the
grammar, put together at will. Running a script is running the parser
that it spells. Scripts make "every program over the token stream"
something to quantify over, and let a tool drive the stream step by
step.

A script can hold literals of the tool's own, of type `ρ`; they pass
through unread.
-/
import DepLang.Grammar.Decl

namespace DepLang

/-- The rules of the grammar, by name. -/
inductive Rule where
  | expr
  | operand
  | atom
  | patternAtom
  | application
  | ascription
  | lambda
  | piType
  | name
  | namedArgument
  | signature
  | constructorByArguments
  | associativity
  | functionClause
  | operatorClause
  | clause
  | item
  | declaration
  | fixityDeclaration
  | signatureDeclaration
  | dataBySignatures
  | dataByArguments
  | dataDeclaration
  | clauseDeclaration
  deriving DecidableEq, Inhabited

/-- A parser written down as data. -/
inductive Script (ρ : Type) where
  | peek (offset : Nat)
  | advance
  | atEnd
  | eof
  | expect (kind : TokenKind)
  | reserved (word : String)
  | symbol (op : String)
  | operator
  | identifier
  | natural
  | fail (expected : List String) (message : Option String)
  | attempt (p : Script ρ)
  | choice (ps : List (Script ρ))
  | optional (p : Script ρ) (default : ρ)
  | many (p : Script ρ)
  | many1 (p : Script ρ)
  | sepBy1 (p separator : Script ρ)
  | seq (ps : List (Script ρ))
  | literal (value : ρ)
  | define (name : Name) (names : List Name)
  | declareFixities (entries : List FixityEntry)
  | declareType (name : Name) (type : Term)
  | application (head : Term) (start : Option Nat)
  | report (failure : Failure)
  | rule (rule : Rule)

/-- What a script finds. -/
inductive Value (ρ : Type) where
  | nothing
  | literal (value : ρ)
  | token (token : Token)
  | flag (value : Bool)
  | natural (value : Nat)
  | list (values : List (Value ρ))
  | name (name : Name)
  | term (term : Term)
  | binding (name : Name) (term : Term)
  | constructor (name : Name) (args : List Term)
  | assoc (assoc : Assoc)
  | clause (clause : Clause)
  | decl (decl : Decl)
  | failure (failure : Failure)

-- =========================================================== rules

/-- A rule of the grammar as a parser. -/
def Rule.parser {ρ : Type} : Rule → Parser (Value ρ)
  | .expr => .term <$> Grammar.expr
  | .operand => .term <$> Grammar.operand Grammar.expr
  | .atom => .term <$> Grammar.atom Grammar.expr
  | .patternAtom => .term <$> Grammar.patternAtom Grammar.expr
  | .application => .term <$> Grammar.application Grammar.expr none
  | .ascription => .term <$> Grammar.ascription Grammar.expr
  | .lambda => .term <$> Grammar.lambda Grammar.expr
  | .piType => .term <$> Grammar.piType Grammar.expr
  | .name => .name <$> Grammar.name
  | .namedArgument =>
    (fun (n, t) => .binding n t) <$> Grammar.namedArgument Grammar.expr
  | .signature => (fun (n, t) => .binding n t) <$> Grammar.signature
  | .constructorByArguments =>
    (fun (n, ts) => .constructor n ts) <$> Grammar.constructorByArguments
  | .associativity => .assoc <$> Grammar.associativity
  | .functionClause => .clause <$> Grammar.functionClause
  | .operatorClause => .clause <$> Grammar.operatorClause
  | .clause => .clause <$> Grammar.clause
  | .item => .decl <$> Grammar.item
  | .declaration => .decl <$> Grammar.declaration
  | .fixityDeclaration => .decl <$> Grammar.fixityDeclaration
  | .signatureDeclaration => .decl <$> Grammar.signatureDeclaration
  | .dataBySignatures => .decl <$> Grammar.dataBySignatures
  | .dataByArguments => .decl <$> Grammar.dataByArguments
  | .dataDeclaration => .decl <$> Grammar.dataDeclaration
  | .clauseDeclaration => .decl <$> Grammar.clauseDeclaration

-- ========================================================= scripts

namespace Script

variable {ρ : Type}

/-- Runs parsers one after the other. -/
def inTurn : List (Parser (Value ρ)) → Parser (List (Value ρ))
  | [] => pure []
  | p :: ps => do
    let value ← p
    let values ← inTurn ps
    pure (value :: values)

/-- A message that says nothing counts as none. -/
def complaint? (message : Option String) : Option Complaint :=
  (message.filter (· ≠ "")).map Complaint.custom

mutual

/-- The parser that a script spells. -/
def parser : Script ρ → Parser (Value ρ)
  | .peek offset => .token <$> Parser.peek offset
  | .advance => .token <$> Parser.advance
  | .atEnd => .flag <$> Parser.atEnd
  | .eof => (fun _ => .nothing) <$> Parser.eof
  | .expect kind => .token <$> Parser.expect kind
  | .reserved word => .token <$> Parser.reserved word
  | .symbol op => .token <$> Parser.symbol op
  | .operator => .token <$> Parser.operator
  | .identifier => .token <$> Parser.identifier
  | .natural => .natural <$> Parser.natural
  | .fail expected message =>
    Parser.failWith (complaint? message) expected
  | .attempt p => p.parser.attempt
  | .choice ps => Parser.choice (parsers ps)
  | .optional p default => p.parser.optional (.literal default)
  | .many p => .list <$> p.parser.many
  | .many1 p => .list <$> p.parser.many1
  | .sepBy1 p separator => .list <$> p.parser.sepBy1 separator.parser
  | .seq ps => .list <$> inTurn (parsers ps)
  | .literal value => pure (.literal value)
  | .define name names =>
    (fun _ => .nothing) <$> Parser.define name names
  | .declareFixities entries =>
    (fun _ => .nothing) <$> Parser.declareFixities entries
  | .declareType name type => .term <$> Grammar.declareType name type
  | .application head start =>
    .term <$> Grammar.application Grammar.expr (start.map (head, ·))
  | .report e => .failure <$> Parser.ask fun _ s => s.report e
  | .rule r => r.parser

/-- The parsers that scripts spell. -/
def parsers : List (Script ρ) → List (Parser (Value ρ))
  | [] => []
  | p :: ps => p.parser :: parsers ps

end

end Script

end DepLang
