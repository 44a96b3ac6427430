/-
The grammar of expressions.

  expr    ::= operand {operator operand}
  operand ::= atom [{named} atom {atom}]
            | "\" ident [":" expr] "=>" expr
            | "(" ident ":" expr ")" "->" expr
            | "{" ident ":" expr "}" "->" expr
  atom    ::= "![" expr "]" | name | "_" | "(" expr ")" | "Set"
  name    ::= ident | "(" operator ")"
  named   ::= "{" ident ["=" expr] "}"

Operators are those of the fixity table as it stands when the expression
is entered. Every rule below takes the parser for nested expressions as
a parameter, and the grammar closes the circle at the end: a nested
expression is only ever entered after a token of the outer one, so
nesting as deep as there are tokens left is deep enough for all.

Each list of alternatives is a definition of its own, in the order in
which they are tried.
-/
import DepLang.Grammar.Operators

namespace DepLang.Grammar

open DepLang.Parser

-- =========================================================== spans

/-- Where the next token starts. -/
def here : Parser Nat :=
  ask fun inp s => (inp.tokenAt s.cursor).span.start

/-- The span from a start to the end of what has been read; never
negative. -/
def spanFrom (start : Nat) : Parser Span :=
  ask fun inp s =>
    ⟨start, max (inp.tokenAt (s.cursor - 1)).span.stop start⟩

/-- A term with the span from where it starts. -/
def located (start : Nat) (f : Option Span → Term) : Parser Term := do
  let span ← spanFrom start
  pure (f (some span))

-- =========================================================== names

/-- An identifier as a name. -/
def identName : Parser Name := do
  let word ← identifier
  pure (.ofText word.text)

/-- An operator as a name, in parentheses. -/
def operatorName : Parser Name := do
  let _ ← mark .lparen
  let op ← operator
  let _ ← mark .rparen
  pure (.ofText op.text)

/-- The ways to write a name. -/
def nameAlternatives : List (Parser Name) := [identName, operatorName]

/-- A name that can be defined. -/
def name : Parser Name := choice nameAlternatives

section
variable (expr : Parser Term)

-- =========================================================== atoms

/-- A quotation. -/
def quotation (start : Nat) : Parser Term := do
  let _ ← mark .quote
  let body ← expr
  let _ ← mark .rbracket
  located start (.quote body)

/-- A reference to a name. -/
def reference (start : Nat) : Parser Term := do
  let target ← name
  located start (.ref target)

/-- A hole. -/
def hole (start : Nat) : Parser Term := do
  let _ ← mark .hole
  located start .hole

/-- An expression in parentheses, which leave no trace. -/
def parenthesized : Parser Term := do
  let _ ← mark .lparen
  let body ← expr
  let _ ← mark .rparen
  pure body

/-- The type of types. -/
def setType (start : Nat) : Parser Term := do
  let _ ← reserved "Set"
  located start .set

/-- The ways to write an atom. -/
def atomAlternatives (start : Nat) : List (Parser Term) :=
  [quotation expr start, reference start, hole start,
    parenthesized expr, setType start]

/-- An atom: an expression that needs no parentheses. -/
def atom : Parser Term := do
  let start ← here
  choice (atomAlternatives expr start)

/-- An atom marked as hidden. -/
def hidden (start : Nat) : Parser Term := do
  let _ ← symbol "."
  let body ← atom expr
  located start (.hidden body)

/-- The ways to write an argument of a pattern. -/
def patternAlternatives (start : Nat) : List (Parser Term) :=
  [atom expr, hidden expr start]

/-- An argument of a pattern: an atom, which may be hidden. -/
def patternAtom : Parser Term := do
  let start ← here
  choice (patternAlternatives expr start)

-- ==================================================== applications

/-- The value of an argument given by name. -/
def namedValue : Parser Term := do
  let _ ← symbol "="
  expr

/-- An argument given by name, which stands for itself unless a value
follows. -/
def namedArgument : Parser (Name × Term) := do
  let _ ← mark .lbrace
  let start ← here
  let target ← identName
  let itself ← located start (.ref target)
  let value ← (namedValue expr).optional itself
  let _ ← mark .rbrace
  pure (target, value)

/-- The arguments of a head that starts at `start`: any by name, then
at least one by position. -/
def applicationOf (head : Term) (start : Nat) : Parser Term := do
  let named ← many (namedArgument expr)
  let args ← many1 (atom expr)
  located start (.app head named args)

/-- An application: a head, read already or still to be read, and its
arguments. -/
def application (head : Option (Term × Nat)) : Parser Term := do
  match head with
  | some (fn, start) => applicationOf expr fn start
  | none =>
    let start ← here
    let fn ← atom expr
    applicationOf expr fn start

/-- An application, or an atom alone. -/
def applicationOrAtom : Parser Term := do
  let start ← here
  let head ← atom expr
  (application expr (some (head, start))).optional head

-- ========================================================= binders

/-- A type after a colon. -/
def ascription : Parser Term := do
  let _ ← symbol ":"
  expr

/-- A lambda, whose variable's type may be omitted. -/
def lambda : Parser Term := do
  let start ← here
  let _ ← symbol "\\"
  let binder ← identName
  let type ← (ascription expr).optional (.hole none)
  let _ ← symbol "=>"
  let body ← expr
  located start (.lam binder type body)

/-- A function type that names its argument, between the given
brackets. -/
def piBetween (opening closing : Mark) (plicity : Plicity)
    (start : Nat) : Parser Term := do
  let _ ← mark opening
  let binder ← identName
  let type ← ascription expr
  let _ ← mark closing
  let _ ← symbol "->"
  let body ← expr
  located start (.pi plicity binder type body)

/-- The ways to bind an argument in a function type. -/
def piAlternatives (start : Nat) : List (Parser Term) :=
  [piBetween expr .lparen .rparen .explicit start,
    piBetween expr .lbrace .rbrace .implicit start]

/-- A function type that names its argument. -/
def piType : Parser Term := do
  let start ← here
  choice (piAlternatives expr start)

-- ======================================================== operands

/-- The ways to write an operand. -/
def operandAlternatives : List (Parser Term) :=
  [applicationOrAtom expr, lambda expr, piType expr]

/-- An operand: an expression without operators of its own. -/
def operand : Parser Term := choice (operandAlternatives expr)

/-- An expression over the operators that are declared by now. -/
def exprOver : Parser Term := fun inp s =>
  chains (operand expr) s.registry.fixities.levels.reverse inp s

end

-- ===================================================== expressions

/-- An expression with at most `depth` others around one another in
it, itself included. -/
def exprWithin : Nat → Parser Term
  | 0 => broken .nestedTooDeep
  | depth + 1 => exprOver (exprWithin depth)

/-- An expression. -/
def expr : Parser Term := fun inp s =>
  exprWithin (inp.remaining s + 1) inp s

/-- An expression and nothing after it. -/
def wholeExpr : Parser Term := do
  let t ← expr
  eof
  pure t

end DepLang.Grammar
