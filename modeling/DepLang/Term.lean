/-
Terms of the language as the user writes them, before any checking.
Every node may carry the span of text it was read from; nodes that the
front end makes itself carry none. Spans are for messages only: two
terms of the same shape mean the same, and `erase` forgets the rest.
-/
import DepLang.Name
import DepLang.Span

namespace DepLang

/-- Whether a function's argument is written at its call sites. -/
inductive Plicity where
  | explicit
  | implicit
  deriving DecidableEq, Inhabited

/-- A term. An application holds its head, the implicit arguments given
by name, and the positional arguments. -/
inductive Term where
  | ref (name : Name) (span : Option Span)
  | hole (span : Option Span)
  | set (span : Option Span)
  | quote (body : Term) (span : Option Span)
  | hidden (body : Term) (span : Option Span)
  | app (fn : Term) (implicits : List (Name × Term)) (args : List Term)
      (span : Option Span)
  | lam (binder : Name) (type body : Term) (span : Option Span)
  | pi (plicity : Plicity) (binder : Name) (type body : Term)
      (span : Option Span)
  deriving Inhabited

namespace Term

/-- Where the term was read from. -/
def span : Term → Option Span
  | .ref _ span | .hole span | .set span | .quote _ span
  | .hidden _ span | .app _ _ _ span | .lam _ _ _ span
  | .pi _ _ _ _ span => span

-- ============================================================ shape

mutual

/-- The term without its spans. -/
def erase : Term → Term
  | .ref name _ => .ref name none
  | .hole _ => .hole none
  | .set _ => .set none
  | .quote body _ => .quote body.erase none
  | .hidden body _ => .hidden body.erase none
  | .app fn implicits args _ =>
    .app fn.erase (eraseNamed implicits) (eraseAll args) none
  | .lam binder type body _ => .lam binder type.erase body.erase none
  | .pi plicity binder type body _ =>
    .pi plicity binder type.erase body.erase none

/-- Erasure of positional arguments. -/
def eraseAll : List Term → List Term
  | [] => []
  | t :: ts => t.erase :: eraseAll ts

/-- Erasure of arguments given by name. -/
def eraseNamed : List (Name × Term) → List (Name × Term)
  | [] => []
  | (name, t) :: ts => (name, t.erase) :: eraseNamed ts

end

mutual

/-- Do two terms agree up to spans? -/
def sameShape : Term → Term → Bool
  | .ref x _, .ref y _ => x == y
  | .hole _, .hole _ => true
  | .set _, .set _ => true
  | .quote t _, .quote u _ => t.sameShape u
  | .hidden t _, .hidden u _ => t.sameShape u
  | .app f xs ts _, .app g ys us _ =>
    f.sameShape g && sameShapeNamed xs ys && sameShapeAll ts us
  | .lam x t b _, .lam y u c _ =>
    x == y && t.sameShape u && b.sameShape c
  | .pi p x t b _, .pi q y u c _ =>
    p == q && x == y && t.sameShape u && b.sameShape c
  | _, _ => false

/-- Agreement of positional arguments, one by one. -/
def sameShapeAll : List Term → List Term → Bool
  | [], [] => true
  | t :: ts, u :: us => t.sameShape u && sameShapeAll ts us
  | _, _ => false

/-- Agreement of named arguments, in written order. -/
def sameShapeNamed : List (Name × Term) → List (Name × Term) → Bool
  | [], [] => true
  | (x, t) :: ts, (y, u) :: us =>
    x == y && t.sameShape u && sameShapeNamed ts us
  | _, _ => false

end

mutual

/-- Terms agree up to spans exactly if they are equal without them. -/
theorem sameShape_iff (t u : Term) :
    t.sameShape u = true ↔ t.erase = u.erase := by
  cases t with
  | ref => cases u <;> simp [sameShape, erase]
  | hole => cases u <;> simp [sameShape, erase]
  | set => cases u <;> simp [sameShape, erase]
  | quote t => cases u <;> simp [sameShape, erase, sameShape_iff t]
  | hidden t => cases u <;> simp [sameShape, erase, sameShape_iff t]
  | app f xs ts =>
    cases u <;>
      simp [sameShape, erase, sameShape_iff f, sameShapeNamed_iff xs,
        sameShapeAll_iff ts, and_assoc]
  | lam x t b =>
    cases u <;>
      simp [sameShape, erase, sameShape_iff t, sameShape_iff b,
        and_assoc]
  | pi p x t b =>
    cases u <;>
      simp [sameShape, erase, sameShape_iff t, sameShape_iff b,
        and_assoc]

/-- The same of positional arguments. -/
theorem sameShapeAll_iff (ts us : List Term) :
    sameShapeAll ts us = true ↔ eraseAll ts = eraseAll us := by
  cases ts with
  | nil => cases us <;> simp [sameShapeAll, eraseAll]
  | cons t ts =>
    cases us <;>
      simp [sameShapeAll, eraseAll, sameShape_iff t, sameShapeAll_iff ts]

/-- The same of named arguments. -/
theorem sameShapeNamed_iff (ts us : List (Name × Term)) :
    sameShapeNamed ts us = true ↔ eraseNamed ts = eraseNamed us := by
  match ts, us with
  | [], [] => simp [sameShapeNamed, eraseNamed]
  | [], _ :: _ => simp [sameShapeNamed, eraseNamed]
  | _ :: _, [] => simp [sameShapeNamed, eraseNamed]
  | (x, t) :: ts, (y, u) :: us =>
    simp [sameShapeNamed, eraseNamed, sameShape_iff t u,
      sameShapeNamed_iff ts us, and_assoc]

end

-- ==================================================== construction

/-- A function applied to arguments; to none, it is the function. -/
def applied (fn : Term) : List Term → Term
  | [] => fn
  | args => .app fn [] args none

/-- The function type `a₁ -> … -> aₙ -> result`, its binders unused. -/
def arrows (binder : Name) (domains : List Term) (result : Term) :
    Term :=
  domains.foldr (fun domain t => .pi .explicit binder domain t none)
    result

end Term

end DepLang
