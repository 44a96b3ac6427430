/-
Supplying omitted implicit arguments. Every application of a defined
name gets all of the name's implicit arguments, in their recorded
order: the value that the user gave, or a hole. Arguments under names
that the definition does not have stay, after the others. A variable
bound around the application hides a definition of the same name.
-/
import DepLang.Registry
import DepLang.Term

namespace DepLang

/-- Named arguments completed: the declared ones first, each with the
last value given for it or a hole, then those that are not declared. -/
def completeNamed (declared : List Name) (given : List (Name × Term)) :
    List (Name × Term) :=
  declared.map (fun name =>
      (name, (given.reverse.lookup name).getD (.hole none)))
    ++ given.filter fun (name, _) => name ∉ declared

namespace Registry

variable (r : Registry)

/-- The head of an application as a definition, unless it is bound. -/
def definitionHead? (bound : List Name) : Term → Option Name
  | .ref name _ => if name ∈ bound then none else some name
  | _ => none

/-- The named arguments of an application of a definition. -/
def completeFor (name : Name) (given : List (Name × Term)) :
    List (Name × Term) :=
  match r.implicitsOf name with
  | [] => given
  | declared => completeNamed declared given

mutual

/-- Completes every application in a term under the given binders. -/
def supplyUnder (bound : List Name) : Term → Term
  | .ref name span => .ref name span
  | .hole span => .hole span
  | .set span => .set span
  | .quote body span => .quote (supplyUnder bound body) span
  | .hidden body span => .hidden (supplyUnder bound body) span
  | .app fn implicits args span =>
    let given := supplyNamed bound implicits
    let args := supplyAll bound args
    match definitionHead? bound fn with
    | some name => .app fn (r.completeFor name given) args span
    | none => .app (supplyUnder bound fn) given args span
  | .lam binder type body span =>
    .lam binder (supplyUnder bound type)
      (supplyUnder (binder :: bound) body) span
  | .pi plicity binder type body span =>
    .pi plicity binder (supplyUnder bound type)
      (supplyUnder (binder :: bound) body) span

/-- Completes positional arguments. -/
def supplyAll (bound : List Name) : List Term → List Term
  | [] => []
  | t :: ts => supplyUnder bound t :: supplyAll bound ts

/-- Completes the values of named arguments. -/
def supplyNamed (bound : List Name) :
    List (Name × Term) → List (Name × Term)
  | [] => []
  | (name, t) :: ts =>
    (name, supplyUnder bound t) :: supplyNamed bound ts

end

/-- Completes every application of a definition in a term. -/
def supply (t : Term) : Term := r.supplyUnder [] t

end Registry

end DepLang
