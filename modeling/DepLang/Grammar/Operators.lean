/-
The operators of an expression. The fixity table makes one level of
operators for every precedence in it; below all of them stand two
levels that every program has, equality and the function arrow. Within
a level an operator that was declared more than once counts by its
first entry, and the level lists right-associative entries first, then
left-associative ones, then those that do not associate.

A chain is an expression over the operators of one level. All its
operators must group to the same side, and those that group to neither
cannot be chained at all. An expression is a chain of the loosest
level, whose operands are chains of the next tighter one, down to
operands without operators.
-/
import DepLang.Parser.Combinators
import DepLang.Term

namespace DepLang

-- ======================================================= operators

/-- What an operator makes of its operands. -/
inductive OperatorForm where
  /-- The operator's name applied to both. -/
  | application
  /-- The type of functions from the first to the second. -/
  | arrow
  deriving DecidableEq, Inhabited

/-- An operator at its level. -/
structure Operator where
  symbol : String
  assoc : Assoc
  form : OperatorForm
  deriving DecidableEq, Inhabited

/-- The binder of a function type that names no argument. -/
def arrowBinder : Name := .machine 0 "X"

/-- From the first operand to the second, if both were read. -/
def joinSpans (x y : Term) : Option Span :=
  match x.span, y.span with
  | some s, some t => some (s.through t)
  | _, _ => none

/-- The term that an operator makes of two operands. -/
def Operator.build (op : Operator) (x y : Term) : Term :=
  match op.form with
  | .application =>
    .app (.ref (.ofText op.symbol) none) [] [x, y] (joinSpans x y)
  | .arrow => .pi .explicit arrowBinder x y (joinSpans x y)

-- ========================================================== levels

/-- The operators of one precedence. -/
abbrev Level := List Operator

namespace Level

/-- A declared operator. -/
def declared (entry : FixityEntry) : Operator :=
  ⟨entry.symbol, entry.fixity.assoc, .application⟩

/-- The level of the entries of one precedence: those to the right,
then those to the left, then the rest, each in the order given. -/
def ofEntries (entries : List FixityEntry) : Level :=
  let side (assoc : Assoc) : Level :=
    (entries.filter (·.fixity.assoc = assoc)).map declared
  side .right ++ side .left ++ side .neither

/-- Equality, which groups to the left. -/
def equality : Level := [⟨"=", .left, .application⟩]

/-- The function arrow, which groups to the right. -/
def arrow : Level := [⟨"->", .right, .arrow⟩]

/-- The level's operator for a lexeme. -/
def operator? (level : Level) : Lexeme → Option Operator
  | .operator symbol => level.find? (·.symbol = symbol)
  | _ => none

end Level

/-- The levels of a fixity table, tightest first. -/
def FixityTable.levels (table : FixityTable) : List Level :=
  (table.reverse.splitBy
      fun x y => x.fixity.prec == y.fixity.prec).map Level.ofEntries
    ++ [Level.equality, Level.arrow]

-- ========================================================== chains

/-- The operands of a chain joined from the left. -/
def joinLeft (x : Term) (rest : List (Operator × Term)) : Term :=
  rest.foldl (fun t (op, y) => op.build t y) x

/-- The operands of a chain joined from the right. -/
def joinRight (x : Term) : List (Operator × Term) → Term
  | [] => x
  | (op, y) :: rest => op.build x (joinRight y rest)

/-- The operands of a chain joined to the given side. -/
def joinChain (assoc : Assoc) (x : Term)
    (rest : List (Operator × Term)) : Term :=
  match assoc with
  | .right => joinRight x rest
  | .left | .neither => joinLeft x rest

namespace Grammar

open DepLang.Parser

/-- The operator of a level at the cursor, not yet read. -/
def peekOperator (level : Level) : Parser (Option Operator) :=
  ask fun inp s => level.operator? (inp.tokenAt s.cursor).lexeme

/-- Can the operator go on a chain that groups as given? -/
def continues (assoc : Assoc) (op : Operator) : Bool :=
  op.assoc == assoc && assoc != .neither

theorem continues_iff (assoc : Assoc) (sided : assoc ≠ .neither)
    (op : Operator) : continues assoc op = true ↔ op.assoc = assoc := by
  simp [continues, sided]

/-- One more operator of a chain with its right operand, if the chain
goes on. An operator of the level that the chain cannot take is an
ambiguity. -/
def chainStep (level : Level) (assoc : Assoc) (operand : Parser Term) :
    Parser (Option (Operator × Term)) := do
  match ← peekOperator level with
  | none => pure none
  | some op =>
    if continues assoc op then
      let _ ← advance
      let y ← operand
      pure (some (op, y))
    else failWith (some (.ambiguous op.assoc)) []

/-- A chain of one level: an operand, and operators with operands. The
first operator sets the side to which the chain groups. -/
def chain (level : Level) (operand : Parser Term) : Parser Term := do
  let x ← operand
  match ← peekOperator level with
  | none => pure x
  | some op =>
    let _ ← advance
    let y ← operand
    let rest ← loop (chainStep level op.assoc operand)
    pure (joinChain op.assoc x ((op, y) :: rest))

/-- An expression over the given levels, loosest first. -/
def chains (operand : Parser Term) : List Level → Parser Term
  | [] => operand
  | level :: tighter => chain level (chains operand tighter)

end Grammar

end DepLang
