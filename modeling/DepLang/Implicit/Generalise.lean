/-
Closing a type over its free names. A lowercase name that a type leaves
free, and that no definition has taken, stands for an implicit argument:
it is bound in front of the type, the first to occur outermost. What is
recorded for the defined name are these new arguments and the implicit
ones that the user had bound in front already.
-/
import DepLang.Registry
import DepLang.Term.FreeNames
import DepLang.Text.Lowercase

namespace DepLang

/-- Can a free occurrence of the name be meant as an implicit argument:
does its text start with a lowercase letter? -/
def Name.isImplicitable : Name → Bool
  | .user (first :: _) =>
    match first.toList with
    | [] => false
    | c :: _ => Text.isLowercase c
  | _ => false

namespace Term

/-- The binders of the implicit pis at the front of a type. -/
def leadingImplicits : Term → List Name
  | .pi .implicit binder _ body _ => binder :: body.leadingImplicits
  | _ => []

/-- Binds names as implicit arguments of unstated type, the first
outermost. The binders stand for the whole type, and take its span. -/
def bindImplicits (names : List Name) (type : Term) : Term :=
  names.foldr
    (fun name t => .pi .implicit name (.hole none) t type.span) type

end Term

namespace Registry

/-- The free names of a type that are to become implicit arguments. -/
def newImplicits (r : Registry) (type : Term) : List Name :=
  type.freeNames.filter fun name =>
    name.isImplicitable && !r.defines name

/-- Closes a type, and lists its implicit arguments. -/
def generalise (r : Registry) (type : Term) : Term × List Name :=
  let new := r.newImplicits type
  (type.bindImplicits new,
    new ++ type.leadingImplicits.filter (· ∉ new))

end Registry

end DepLang
