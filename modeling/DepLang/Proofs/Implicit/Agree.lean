/-
The elaboration of implicit arguments looks at names and never at
spans. The names that a type leaves free, the binders at its front and
the arguments that a call site lacks are the same with and without
spans, so types that agree are closed alike and terms that agree are
completed alike, whatever registry gave the implicit arguments.
-/
import DepLang.Proofs.Term.Agree
import DepLang.Proofs.Term.FreeNames

namespace DepLang

variable {exact : Prop}

namespace Term

-- ====================================================== free names

mutual

/-- Spans bind nothing and refer to nothing. -/
theorem occurrences_erase (t : Term) :
    t.erase.occurrences = t.occurrences := by
  cases t with
  | ref => rw [erase, occurrences, occurrences]
  | hole => rw [erase, occurrences, occurrences]
  | set => rw [erase, occurrences, occurrences]
  | quote t =>
      rw [erase, occurrences, occurrences, occurrences_erase t]
  | hidden t =>
      rw [erase, occurrences, occurrences, occurrences_erase t]
  | app fn xs ts =>
      rw [erase, occurrences, occurrences, occurrences_erase fn,
        occurrencesNamed_erase xs, occurrencesAll_erase ts]
  | lam x t b | pi p x t b =>
      rw [erase, occurrences, occurrences, occurrences_erase t,
        occurrences_erase b]

/-- The same of positional arguments. -/
theorem occurrencesAll_erase (ts : List Term) :
    occurrencesAll (eraseAll ts) = occurrencesAll ts := by
  cases ts with
  | nil => rw [eraseAll]
  | cons t ts =>
      rw [eraseAll, occurrencesAll, occurrencesAll, occurrences_erase t,
        occurrencesAll_erase ts]

/-- The same of named arguments. -/
theorem occurrencesNamed_erase (ts : List (Name × Term)) :
    occurrencesNamed (eraseNamed ts) = occurrencesNamed ts := by
  match ts with
  | [] => rw [eraseNamed]
  | (x, t) :: ts =>
      rw [eraseNamed, occurrencesNamed, occurrencesNamed,
        occurrences_erase t, occurrencesNamed_erase ts]

end

theorem freeNames_erase (t : Term) : t.erase.freeNames = t.freeNames := by
  rw [freeNames_eq, freeNames_eq, occurrences_erase]

/-- Spans bind no implicit arguments. -/
theorem leadingImplicits_erase (t : Term) :
    t.erase.leadingImplicits = t.leadingImplicits := by
  fun_induction leadingImplicits t with
  | case1 x t b σ ih => rw [erase, leadingImplicits, ih]
  | case2 t other =>
      cases t with
      | pi p x t b σ =>
          cases p with
          | explicit =>
              rw [erase, leadingImplicits]
              simp
          | implicit => exact absurd rfl (other x t b σ)
      | _ => simp [erase, leadingImplicits]

/-- Binding the same names in front of types that agree. -/
theorem bindImplicits_agrees {t u : Term} (names : List Name)
    (h : Agrees exact t u) :
    Agrees exact (t.bindImplicits names) (u.bindImplicits names) := by
  have spans : exact → t.span = u.span := fun hx => by rw [h.2 hx]
  unfold bindImplicits
  induction names with
  | nil => exact h
  | cons x names ih => exact agrees_pi (.refl _) ih spans

end Term

open Term

namespace Registry

-- ========================================================= closing

/-- A closed type with its implicit arguments, without spans. -/
def eraseClosed : Term × List Name → Term × List Name
  | (t, names) => (t.erase, names)

/-- Types that agree are closed alike. -/
theorem generalise_agrees {r r' : Registry} {t u : Term}
    (same : r.implicitsOf? = r'.implicitsOf?) (h : Agrees exact t u) :
    Agree exact eraseClosed (r.generalise t) (r'.generalise u) := by
  have new : r.newImplicits t = r'.newImplicits u := by
    unfold newImplicits defines
    rw [← freeNames_erase t, h.1, freeNames_erase, same]
  have leading : t.leadingImplicits = u.leadingImplicits := by
    rw [← leadingImplicits_erase t, h.1, leadingImplicits_erase]
  have bound := bindImplicits_agrees (r'.newImplicits u) h
  unfold generalise
  rw [new, leading]
  constructor
  · exact Prod.ext bound.1 rfl
  · intro hx
    exact Prod.ext (bound.2 hx) rfl

end Registry

-- ====================================================== completing

/-- The value given for a name, in arguments that are all changed
alike. -/
theorem lookup_map_value (f : Term → Term) (x : Name)
    (ts : List (Name × Term)) :
    (ts.map (Prod.map id f)).lookup x = (ts.lookup x).map f := by
  induction ts with
  | nil => rfl
  | cons a ts ih =>
      obtain ⟨y, t⟩ := a
      rw [List.map_cons, Prod.map_apply, List.lookup_cons,
        List.lookup_cons, ih]
      cases h : x == y <;> simp [h]

/-- Completing named arguments looks at their names only: it commutes
with any change to the values that leaves holes as they are. -/
theorem map_completeNamed {f : Term → Term}
    (hole : f (.hole none) = .hole none) (declared : List Name)
    (given : List (Name × Term)) :
    (completeNamed declared given).map (Prod.map id f)
      = completeNamed declared (given.map (Prod.map id f)) := by
  have supplied (x : Name) :
      f ((given.reverse.lookup x).getD (.hole none))
        = ((given.map (Prod.map id f)).reverse.lookup x).getD
            (.hole none) := by
    rw [← List.map_reverse, lookup_map_value]
    cases given.reverse.lookup x with
    | none => exact hole
    | some t => rfl
  simp only [completeNamed, List.map_append, List.map_map,
    List.filter_map]
  congr 1
  exact List.map_congr_left fun x _ => congrArg (x, ·) (supplied x)

namespace Registry

variable (r : Registry)

/-- The same of the arguments of an application. -/
theorem map_completeFor {f : Term → Term}
    (hole : f (.hole none) = .hole none) (x : Name)
    (given : List (Name × Term)) :
    (r.completeFor x given).map (Prod.map id f)
      = r.completeFor x (given.map (Prod.map id f)) := by
  unfold completeFor
  cases r.implicitsOf x with
  | nil => rfl
  | cons y names => exact map_completeNamed hole _ _

theorem eraseNamed_completeFor (x : Name) (given : List (Name × Term)) :
    eraseNamed (r.completeFor x given)
      = r.completeFor x (eraseNamed given) := by
  have binding : eraseBinding = Prod.map id erase := rfl
  rw [eraseNamed_eq_map, eraseNamed_eq_map, binding]
  exact r.map_completeFor rfl x given

theorem definitionHead?_erase (bound : List Name) (t : Term) :
    definitionHead? bound t.erase = definitionHead? bound t := by
  cases t <;> rfl

mutual

/-- Completing a term and forgetting its spans, in either order. -/
theorem erase_supplyUnder (bound : List Name) (t : Term) :
    (r.supplyUnder bound t).erase = r.supplyUnder bound t.erase := by
  cases t with
  | ref => simp only [supplyUnder, erase]
  | hole => simp only [supplyUnder, erase]
  | set => simp only [supplyUnder, erase]
  | quote t => simp only [supplyUnder, erase, erase_supplyUnder bound t]
  | hidden t => simp only [supplyUnder, erase, erase_supplyUnder bound t]
  | app fn xs ts =>
      simp only [supplyUnder, erase, definitionHead?_erase]
      cases definitionHead? bound fn with
      | some x =>
          simp only [erase, eraseNamed_completeFor,
            eraseNamed_supplyNamed bound xs, eraseAll_supplyAll bound ts]
      | none =>
          simp only [erase, erase_supplyUnder bound fn,
            eraseNamed_supplyNamed bound xs, eraseAll_supplyAll bound ts]
  | lam x t b | pi p x t b =>
      simp only [supplyUnder, erase, erase_supplyUnder bound t,
        erase_supplyUnder (x :: bound) b]

/-- The same of positional arguments. -/
theorem eraseAll_supplyAll (bound : List Name) (ts : List Term) :
    eraseAll (r.supplyAll bound ts) = r.supplyAll bound (eraseAll ts) := by
  cases ts with
  | nil => simp only [supplyAll, eraseAll]
  | cons t ts =>
      simp only [supplyAll, eraseAll, erase_supplyUnder bound t,
        eraseAll_supplyAll bound ts]

/-- The same of named arguments. -/
theorem eraseNamed_supplyNamed (bound : List Name)
    (ts : List (Name × Term)) :
    eraseNamed (r.supplyNamed bound ts)
      = r.supplyNamed bound (eraseNamed ts) := by
  match ts with
  | [] => simp only [supplyNamed, eraseNamed]
  | (x, t) :: ts =>
      simp only [supplyNamed, eraseNamed, erase_supplyUnder bound t,
        eraseNamed_supplyNamed bound ts]

end

-- ==================================================== two registries

/-- Completing a whole term and forgetting its spans. -/
theorem erase_supply (t : Term) :
    (r.supply t).erase = r.supply t.erase :=
  r.erase_supplyUnder [] t

variable {r} {r' : Registry}

theorem completeFor_congr (same : r.implicitsOf? = r'.implicitsOf?) :
    r.completeFor = r'.completeFor := by
  funext x given
  unfold completeFor implicitsOf
  rw [same]

mutual

/-- Completion reads nothing but the implicit arguments of a
registry. -/
theorem supplyUnder_congr (same : r.implicitsOf? = r'.implicitsOf?)
    (bound : List Name) (t : Term) :
    r.supplyUnder bound t = r'.supplyUnder bound t := by
  cases t with
  | ref => simp only [supplyUnder]
  | hole => simp only [supplyUnder]
  | set => simp only [supplyUnder]
  | quote t => simp only [supplyUnder, supplyUnder_congr same bound t]
  | hidden t => simp only [supplyUnder, supplyUnder_congr same bound t]
  | app fn xs ts =>
      simp only [supplyUnder, completeFor_congr same,
        supplyUnder_congr same bound fn, supplyNamed_congr same bound xs,
        supplyAll_congr same bound ts]
  | lam x t b | pi p x t b =>
      simp only [supplyUnder, supplyUnder_congr same bound t,
        supplyUnder_congr same (x :: bound) b]

/-- The same of positional arguments. -/
theorem supplyAll_congr (same : r.implicitsOf? = r'.implicitsOf?)
    (bound : List Name) (ts : List Term) :
    r.supplyAll bound ts = r'.supplyAll bound ts := by
  cases ts with
  | nil => simp only [supplyAll]
  | cons t ts =>
      simp only [supplyAll, supplyUnder_congr same bound t,
        supplyAll_congr same bound ts]

/-- The same of named arguments. -/
theorem supplyNamed_congr (same : r.implicitsOf? = r'.implicitsOf?)
    (bound : List Name) (ts : List (Name × Term)) :
    r.supplyNamed bound ts = r'.supplyNamed bound ts := by
  match ts with
  | [] => simp only [supplyNamed]
  | (x, t) :: ts =>
      simp only [supplyNamed, supplyUnder_congr same bound t,
        supplyNamed_congr same bound ts]

end

end Registry

-- ==================================================== declarations

/-- A clause without its spans. -/
def Clause.erase (c : Clause) : Clause := c.mapTerms Term.erase

/-- A declaration without its spans. -/
def Decl.erase (d : Decl) : Decl := d.mapTerms Term.erase

end DepLang
