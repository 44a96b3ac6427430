/-
Printing terms. A term has a precedence by its outermost form, and a
place in another term asks for a least one; parentheses close a term
that binds too loosely for its place. An operator applied to two
arguments and nothing else prints infix, and both its operands must
bind tighter than any operator, so printed text never leans on a fixity
table.
-/
import DepLang.Term

namespace DepLang

/-- Precedences of printed terms, loosest first. -/
inductive Precedence where
  | binder
  | operator
  | application
  | atom
  deriving DecidableEq, Inhabited

/-- The rank of a precedence; higher binds tighter. -/
def Precedence.rank : Precedence → Nat
  | .binder => 0
  | .operator => 1
  | .application => 2
  | .atom => 3

/-- A name where a term can stand: an operator needs parentheses. -/
def Name.print (name : Name) : String :=
  if name.isOperator then "(" ++ name.toString ++ ")" else name.toString

namespace Term

/-- The operator of an application that prints infix: the head names an
operator, and there are two positional arguments and no others. -/
def infixOperator? :
    Term → List (Name × Term) → List Term → Option Name
  | .ref name _, [], [_, _] =>
    if name.isOperator then some name else none
  | _, _, _ => none

/-- The precedence of a term as it prints. -/
def precedence : Term → Precedence
  | .ref _ _ | .hole _ | .set _ | .quote _ _ | .hidden _ _ => .atom
  | .app fn implicits args _ =>
    if (infixOperator? fn implicits args).isSome then .operator
    else .application
  | .lam _ _ _ _ | .pi _ _ _ _ _ => .binder

/-- A printed term in a place that asks for at least the given
precedence. -/
def enclose (least : Precedence) (t : Term) (text : String) : String :=
  if t.precedence.rank < least.rank then "(" ++ text ++ ")" else text

/-- How a pi binds its variable: nothing is printed for a machine's
name, since no user term refers to it. -/
def printDomain (plicity : Plicity) (binder : Name) (type : Term)
    (text : String) : String :=
  match plicity, binder with
  | .explicit, .machine _ _ => enclose .operator type text
  | .explicit, _ => "(" ++ binder.toString ++ " : " ++ text ++ ")"
  | .implicit, _ => "\x7b" ++ binder.toString ++ " : " ++ text ++ "\x7d"

/-- The type of a lambda's variable; an omitted one is not printed. -/
def printAscription (type : Term) (text : String) : String :=
  match type with
  | .hole _ => ""
  | _ => " : " ++ text

mutual

/-- The text of a term. -/
def print : Term → String
  | .ref name _ => name.print
  | .hole _ => "_"
  | .set _ => "Set"
  | .quote body _ => "![" ++ body.print ++ "]"
  | .hidden body _ => "." ++ enclose .atom body body.print
  | .app fn implicits args _ =>
    match infixOperator? fn implicits args with
    | some name =>
      (" " ++ name.toString ++ " ").intercalate
        (printAll .application args)
    | none =>
      " ".intercalate
        (enclose .application fn fn.print
          :: (printNamed implicits ++ printAll .atom args))
  | .lam binder type body _ =>
    "\\" ++ binder.toString ++ printAscription type type.print
      ++ " => " ++ body.print
  | .pi plicity binder type body _ =>
    printDomain plicity binder type type.print ++ " -> " ++ body.print

/-- The texts of arguments in places of the given precedence. -/
def printAll (least : Precedence) : List Term → List String
  | [] => []
  | t :: ts => enclose least t t.print :: printAll least ts

/-- The texts of arguments given by name. -/
def printNamed : List (Name × Term) → List String
  | [] => []
  | (name, t) :: ts =>
    ("\x7b" ++ name.toString ++ " = " ++ t.print ++ "\x7d")
      :: printNamed ts

end

instance : ToString Term := ⟨print⟩

end Term

end DepLang
