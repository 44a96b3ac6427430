/-
Terms up to spans and to the machine's names. An argument that the user
gives no name is bound by a name of the machine's, and which one says
nothing: no reference can mean it, and it is not printed. The outline of
a term has no spans and one such name in all these places. Terms of one
outline have one text, and bind and refer to the same names of the user.
-/
import DepLang.Grammar.Operators
import DepLang.Proofs.Implicit.Agree
import DepLang.Term.Printer

namespace DepLang.Term

/-- The binder of an argument, always the same if the user named none. -/
def outlineBinder : Plicity → Name → Name
  | .explicit, .machine _ _ => arrowBinder
  | _, binder => binder

mutual

/-- The term without its spans and without names of the machine's
choice. -/
def outline : Term → Term
  | .ref name _ => .ref name none
  | .hole _ => .hole none
  | .set _ => .set none
  | .quote body _ => .quote body.outline none
  | .hidden body _ => .hidden body.outline none
  | .app fn implicits args _ =>
    .app fn.outline (outlineNamed implicits) (outlineAll args) none
  | .lam binder type body _ =>
    .lam binder type.outline body.outline none
  | .pi plicity binder type body _ =>
    .pi plicity (outlineBinder plicity binder) type.outline body.outline
      none

/-- The outlines of positional arguments. -/
def outlineAll : List Term → List Term
  | [] => []
  | t :: ts => t.outline :: outlineAll ts

/-- The outlines of arguments given by name. -/
def outlineNamed : List (Name × Term) → List (Name × Term)
  | [] => []
  | (name, t) :: ts => (name, t.outline) :: outlineNamed ts

end

theorem outlineAll_eq_map (ts : List Term) :
    outlineAll ts = ts.map outline := by
  induction ts with
  | nil => rfl
  | cons t ts ih => rw [outlineAll, List.map_cons, ih]

theorem outlineNamed_eq_map (ts : List (Name × Term)) :
    outlineNamed ts = ts.map (Prod.map id outline) := by
  induction ts with
  | nil => rfl
  | cons a ts ih => rw [outlineNamed, List.map_cons, ih]; rfl

-- =========================================================== spans

mutual

/-- An outline has no spans to forget. -/
theorem outline_erase (t : Term) : t.erase.outline = t.outline := by
  cases t with
  | ref | hole | set => rfl
  | quote t | hidden t => rw [erase, outline, outline, outline_erase t]
  | app fn xs ts =>
      rw [erase, outline, outline, outline_erase fn,
        outlineNamed_erase xs, outlineAll_erase ts]
  | lam x t b =>
      rw [erase, outline, outline, outline_erase t, outline_erase b]
  | pi p x t b =>
      rw [erase, outline, outline, outline_erase t, outline_erase b]

/-- The same of positional arguments. -/
theorem outlineAll_erase (ts : List Term) :
    outlineAll (eraseAll ts) = outlineAll ts := by
  cases ts with
  | nil => rfl
  | cons t ts =>
      rw [eraseAll, outlineAll, outlineAll, outline_erase t,
        outlineAll_erase ts]

/-- The same of named arguments. -/
theorem outlineNamed_erase (ts : List (Name × Term)) :
    outlineNamed (eraseNamed ts) = outlineNamed ts := by
  match ts with
  | [] => rfl
  | (x, t) :: ts =>
      rw [eraseNamed, outlineNamed, outlineNamed, outline_erase t,
        outlineNamed_erase ts]

end

mutual

/-- An outline has no spans. -/
theorem erase_outline (t : Term) : t.outline.erase = t.outline := by
  cases t with
  | ref | hole | set => rfl
  | quote t | hidden t => rw [outline, erase, erase_outline t]
  | app fn xs ts =>
      rw [outline, erase, erase_outline fn, eraseNamed_outline xs,
        eraseAll_outline ts]
  | lam x t b => rw [outline, erase, erase_outline t, erase_outline b]
  | pi p x t b => rw [outline, erase, erase_outline t, erase_outline b]

/-- The same of positional arguments. -/
theorem eraseAll_outline (ts : List Term) :
    eraseAll (outlineAll ts) = outlineAll ts := by
  cases ts with
  | nil => rfl
  | cons t ts =>
      rw [outlineAll, eraseAll, erase_outline t, eraseAll_outline ts]

/-- The same of named arguments. -/
theorem eraseNamed_outline (ts : List (Name × Term)) :
    eraseNamed (outlineNamed ts) = outlineNamed ts := by
  match ts with
  | [] => rfl
  | (x, t) :: ts =>
      rw [outlineNamed, eraseNamed, erase_outline t,
        eraseNamed_outline ts]

end

theorem outlineBinder_outlineBinder (p : Plicity) (x : Name) :
    outlineBinder p (outlineBinder p x) = outlineBinder p x := by
  cases p <;> cases x <;> rfl

mutual

theorem outline_outline (t : Term) : t.outline.outline = t.outline := by
  cases t with
  | ref | hole | set => rfl
  | quote t | hidden t => rw [outline, outline, outline_outline t]
  | app fn xs ts =>
      rw [outline, outline, outline_outline fn, outlineNamed_outline xs,
        outlineAll_outline ts]
  | lam x t b =>
      rw [outline, outline, outline_outline t, outline_outline b]
  | pi p x t b =>
      rw [outline, outline, outline_outline t, outline_outline b,
        outlineBinder_outlineBinder]

/-- The same of positional arguments. -/
theorem outlineAll_outline (ts : List Term) :
    outlineAll (outlineAll ts) = outlineAll ts := by
  cases ts with
  | nil => rfl
  | cons t ts =>
      rw [outlineAll, outlineAll, outline_outline t, outlineAll_outline ts]

/-- The same of named arguments. -/
theorem outlineNamed_outline (ts : List (Name × Term)) :
    outlineNamed (outlineNamed ts) = outlineNamed ts := by
  match ts with
  | [] => rfl
  | (x, t) :: ts =>
      rw [outlineNamed, outlineNamed, outline_outline t,
        outlineNamed_outline ts]

end

/-- Terms that are the same up to spans have one outline. -/
theorem outline_congr {t u : Term} (same : t.erase = u.erase) :
    t.outline = u.outline := by
  rw [← outline_erase t, same, outline_erase]

/-- A term that is an outline up to spans has this outline. -/
theorem outline_of_erase {t u : Term} (h : u.erase = t.outline) :
    u.outline = t.outline := by
  rw [← outline_erase u, h, outline_outline]

-- ============================================================ text

theorem infixOperator?_outline (fn : Term) (xs : List (Name × Term))
    (ts : List Term) :
    infixOperator? fn.outline (outlineNamed xs) (outlineAll ts)
      = infixOperator? fn xs ts := by
  cases fn with
  | ref =>
      match xs, ts with
      | [], [_, _] => rfl
      | [], [] | [], [_] | [], _ :: _ :: _ :: _ | _ :: _, _ => rfl
  | _ => rfl

theorem precedence_outline (t : Term) :
    t.outline.precedence = t.precedence := by
  cases t with
  | app fn xs ts =>
      rw [outline, precedence, precedence, infixOperator?_outline]
  | _ => rfl

theorem enclose_outline (least : Precedence) (t : Term) (text : String) :
    enclose least t.outline text = enclose least t text := by
  rw [enclose, enclose, precedence_outline]

theorem printDomain_outline (p : Plicity) (x : Name) (type : Term)
    (text : String) :
    printDomain p (outlineBinder p x) type.outline text
      = printDomain p x type text := by
  cases p with
  | implicit => cases x <;> rfl
  | explicit =>
      cases x with
      | user => rfl
      | machine => exact enclose_outline .operator type text

mutual

/-- The text of a term is that of its outline. -/
theorem print_outline (t : Term) : t.outline.print = t.print := by
  cases t with
  | ref | hole | set => rfl
  | quote t => rw [outline, print, print, print_outline t]
  | hidden t =>
      rw [outline, print, print, enclose_outline, print_outline t]
  | app fn xs ts =>
      rw [outline, print, print, infixOperator?_outline,
        enclose_outline, print_outline fn, printNamed_outline xs,
        printAll_outline .atom ts, printAll_outline .application ts]
  | lam x t b =>
      have ascription : printAscription t.outline t.outline.print
          = printAscription t t.print := by
        rw [print_outline t]
        cases t <;> rfl
      rw [outline, print, print, ascription, print_outline b]
  | pi p x t b =>
      rw [outline, print, print, print_outline t, print_outline b,
        printDomain_outline]

/-- The same of positional arguments. -/
theorem printAll_outline (least : Precedence) (ts : List Term) :
    printAll least (outlineAll ts) = printAll least ts := by
  cases ts with
  | nil => rfl
  | cons t ts =>
      rw [outlineAll, printAll, printAll, enclose_outline, print_outline t,
        printAll_outline least ts]

/-- The same of named arguments. -/
theorem printNamed_outline (ts : List (Name × Term)) :
    printNamed (outlineNamed ts) = printNamed ts := by
  match ts with
  | [] => rfl
  | (x, t) :: ts =>
      rw [outlineNamed, printNamed, printNamed, print_outline t,
        printNamed_outline ts]

end

-- =========================================================== names

theorem leadingImplicits_outline (t : Term) :
    t.outline.leadingImplicits = t.leadingImplicits := by
  fun_induction leadingImplicits t with
  | case1 x t b σ ih => rw [outline, leadingImplicits, ih]; rfl
  | case2 t other =>
      cases t with
      | pi p x t b σ =>
          cases p with
          | explicit =>
              rw [outline, leadingImplicits]
              simp
          | implicit => exact absurd rfl (other x t b σ)
      | _ => simp [outline, leadingImplicits]

mutual

/-- The user's names that an outline refers to are those of the term. -/
theorem mem_occurrences_outline {segments : List String} (t : Term) :
    .user segments ∈ t.outline.occurrences
      ↔ .user segments ∈ t.occurrences := by
  cases t with
  | ref | hole | set => exact Iff.rfl
  | quote t | hidden t =>
      rw [outline, occurrences, occurrences, mem_occurrences_outline t]
  | app fn xs ts =>
      simp only [outline, occurrences, List.mem_append,
        mem_occurrences_outline fn, mem_occurrencesNamed_outline xs,
        mem_occurrencesAll_outline ts]
  | lam x t b =>
      simp only [outline, occurrences, List.mem_append, List.mem_filter,
        mem_occurrences_outline t, mem_occurrences_outline b]
  | pi p x t b =>
      have same : .user segments ≠ outlineBinder p x
          ↔ Name.user segments ≠ x := by
        cases p <;> cases x <;> simp [outlineBinder, arrowBinder]
      simp only [outline, occurrences, List.mem_append, List.mem_filter,
        mem_occurrences_outline t, mem_occurrences_outline b,
        decide_eq_true_eq, same]

/-- The same of positional arguments. -/
theorem mem_occurrencesAll_outline {segments : List String}
    (ts : List Term) :
    .user segments ∈ occurrencesAll (outlineAll ts)
      ↔ .user segments ∈ occurrencesAll ts := by
  cases ts with
  | nil => exact Iff.rfl
  | cons t ts =>
      simp only [outlineAll, occurrencesAll, List.mem_append,
        mem_occurrences_outline t, mem_occurrencesAll_outline ts]

/-- The same of named arguments. -/
theorem mem_occurrencesNamed_outline {segments : List String}
    (ts : List (Name × Term)) :
    .user segments ∈ occurrencesNamed (outlineNamed ts)
      ↔ .user segments ∈ occurrencesNamed ts := by
  match ts with
  | [] => exact Iff.rfl
  | (x, t) :: ts =>
      simp only [outlineNamed, occurrencesNamed, List.mem_append,
        mem_occurrences_outline t, mem_occurrencesNamed_outline ts]

end

end DepLang.Term
