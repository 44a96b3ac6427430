/-
The grammar of declarations.

  decl    ::= assoc nat operator {"," operator} ";"
            | name ":" expr ";"
            | "data" name ":" expr "where" name ":" expr
                {"|" name ":" expr} ";"
            | "data" name {ident} "=" name {atom} {"|" name {atom}} ";"
            | name {named} {["."] atom} "=" expr ";"
            | atom operator atom "=" expr ";"
  assoc   ::= "infixl" | "infixr" | "infix"

A declaration takes effect as soon as it is read: its operators are
operators, and its types are closed and recorded, for everything that
follows. Once the semicolon is read, the terms of the declaration get
their omitted implicit arguments, by what is recorded at that moment.
-/
import DepLang.Decl
import DepLang.Grammar.Expr
import DepLang.Implicit.Generalise
import DepLang.Implicit.Supply

namespace DepLang.Grammar

open DepLang.Parser

/-- Closes a declared type and records its implicit arguments. -/
def declareType (target : Name) (type : Term) : Parser Term := do
  let registry ← ask fun _ s => s.registry
  let (closed, names) := registry.generalise type
  define target names
  pure closed

/-- A name with its type, closed and recorded. -/
def signature : Parser (Name × Term) := do
  let target ← name
  let type ← ascription expr
  let closed ← declareType target type
  pure (target, closed)

-- ======================================================== fixities

/-- The associativity that a reserved word declares. -/
def associativity? : Lexeme → Option Assoc
  | .reserved word =>
    [Assoc.left, .right, .neither].find? (·.keyword = word)
  | _ => none

/-- The word that starts a fixity declaration. -/
def associativity : Parser Assoc := do
  match ← ask fun inp s =>
      associativity? (inp.tokenAt s.cursor).lexeme with
  | some assoc =>
    let _ ← advance
    pure assoc
  | none => fail ["\"infixl\"", "\"infixr\"", "\"infix\""]

/-- The symbol of an operator that can be declared. -/
def operatorSymbol : Parser String := do
  let op ← operator
  pure op.text

/-- A fixity declaration, for one operator or several. -/
def fixityDeclaration : Parser Decl := do
  let assoc ← associativity
  let prec ← natural
  let symbols ← sepBy1 operatorSymbol (mark .comma)
  declareFixities (symbols.map fun op => ⟨⟨assoc, prec⟩, op⟩)
  pure (.fixity ⟨assoc, prec⟩ symbols)

-- ====================================================== signatures

/-- A type signature. -/
def signatureDeclaration : Parser Decl := do
  let (target, closed) ← signature
  pure (.signature target closed)

-- ====================================================== data types

/-- A data type by its kind and its constructors' types. -/
def dataBySignatures : Parser Decl := do
  let _ ← reserved "data"
  let target ← name
  let kind ← ascription expr
  let _ ← reserved "where"
  let closed ← declareType target kind
  let constructors ← sepBy1 signature (symbol "|")
  pure (.data ⟨target, closed, constructors⟩)

/-- A constructor by its arguments' types. -/
def constructorByArguments : Parser (Name × List Term) := do
  let target ← name
  let args ← many (atom expr)
  pure (target, args)

/-- The binder of a constructor's argument that has no name. -/
def argumentBinder : Name := .machine 0 "t"

/-- Closes and records constructors whose types end in `result`. -/
def declareConstructors (result : Term) :
    List (Name × List Term) → Parser (List (Name × Term))
  | [] => pure []
  | (target, args) :: rest => do
    let closed ←
      declareType target (Term.arrows argumentBinder args result)
    let constructors ← declareConstructors result rest
    pure ((target, closed) :: constructors)

/-- A data type by its parameters, all of them types, and its
constructors' arguments. -/
def dataByArguments : Parser Decl := do
  let _ ← reserved "data"
  let target ← name
  let params ← many identName
  let _ ← symbol "="
  let constructors ← sepBy1 constructorByArguments (symbol "|")
  let result :=
    Term.applied (.ref target none) (params.map (Term.ref · none))
  let kind :=
    Term.arrows argumentBinder (params.map fun _ => .set none)
      (.set none)
  let closed ← declareType target kind
  let typed ← declareConstructors result constructors
  pure (.data ⟨target, closed, typed⟩)

/-- The forms of a data declaration. -/
def dataAlternatives : List (Parser Decl) :=
  [dataBySignatures, dataByArguments]

/-- A data declaration. -/
def dataDeclaration : Parser Decl := choice dataAlternatives

-- ========================================================= clauses

/-- The right-hand side of a clause. -/
def definiens : Parser Term := do
  let _ ← symbol "="
  expr

/-- A clause with the defined name in front of its arguments. -/
def functionClause : Parser Clause := do
  let target ← name
  let named ← many (namedArgument expr)
  let args ← many (patternAtom expr)
  let rhs ← definiens
  pure ⟨target, .app (.ref target none) named args none, rhs⟩

/-- A clause with the defined operator between its arguments. -/
def operatorClause : Parser Clause := do
  let left ← atom expr
  let op ← operator
  let right ← atom expr
  let rhs ← definiens
  let target := Name.ofText op.text
  pure ⟨target, .app (.ref target none) [] [left, right] none, rhs⟩

/-- The forms of a clause. -/
def clauseAlternatives : List (Parser Clause) :=
  [functionClause, operatorClause]

/-- A clause. -/
def clause : Parser Clause := choice clauseAlternatives

/-- A clause as a declaration, in a group of its own. -/
def clauseDeclaration : Parser Decl := do
  let c ← clause
  pure (.clauses Decl.ungrouped [c])

-- ==================================================== declarations

/-- The kinds of declaration. -/
def declarationAlternatives : List (Parser Decl) :=
  [fixityDeclaration, signatureDeclaration, dataDeclaration,
    clauseDeclaration]

/-- A declaration, without its semicolon. -/
def declaration : Parser Decl := choice declarationAlternatives

/-- A declaration with its semicolon, completed by what is declared so
far. -/
def item : Parser Decl := do
  let d ← declaration
  let _ ← mark .semicolon
  let registry ← ask fun _ s => s.registry
  pure (d.mapTerms registry.supply)

/-- A declaration, unless the input is at its end. -/
def item? : Parser (Option Decl) := do
  if ← atEnd then pure none else some <$> item

/-- A module: declarations up to the end of the input, at least one. -/
def moduleItems : Parser (List Decl) := do
  let first ← item
  let rest ← loop item?
  pure (first :: rest)

end DepLang.Grammar
