/-
What becomes of the arguments that the user gives by name. An application
is completed to the implicit arguments of its head, in their order, each
with the last value given for it or a hole, and then what was given
besides. So an argument is left out only if the head has an implicit
argument of its name and another one of this name stands behind it: it
is overridden. All others are still there, as often as they were given
(`lasting_subperm`).

Completing a term does this everywhere in it, and moves no part but the
arguments given by name, and these only among each other. So a path that
does not lead into an overridden argument leads to the same part of the
completed term, completed under the names that are bound there
(`partAt?_supplyUnder`), and what becomes of an application is told where
it stands (`supply_keeps_given`).
-/
import DepLang.Proofs.Implicit.Stable
import DepLang.Proofs.Term.Parts
import Mathlib.Data.List.Perm.Subperm

namespace DepLang

open Term

-- ======================================================== arguments

/-- The arguments that are not overridden: all under a name that is not
declared, and the last under each that is. -/
def lasting (declared : List Name) :
    List (Name × Term) → List (Name × Term)
  | [] => []
  | a :: rest =>
    if a.1 ∈ declared ∧ a.1 ∈ rest.map Prod.fst then
      lasting declared rest
    else a :: lasting declared rest

section
variable {declared : List Name} {given rest : List (Name × Term)}
  {a : Name × Term}

theorem lasting_of_overridden (h : a.1 ∈ declared)
    (again : a.1 ∈ rest.map Prod.fst) :
    lasting declared (a :: rest) = lasting declared rest :=
  if_pos ⟨h, again⟩

theorem lasting_of_last (h : a.1 ∈ declared → a.1 ∉ rest.map Prod.fst) :
    lasting declared (a :: rest) = a :: lasting declared rest :=
  if_neg fun ⟨there, again⟩ => h there again

theorem sublist_lasting (declared : List Name)
    (given : List (Name × Term)) : (lasting declared given).Sublist given := by
  induction given with
  | nil => exact .refl _
  | cons a rest ih =>
      by_cases h : a.1 ∈ declared ∧ a.1 ∈ rest.map Prod.fst
      · rw [lasting_of_overridden h.1 h.2]
        exact ih.cons a
      · rw [lasting_of_last fun there again => h ⟨there, again⟩]
        exact ih.cons_cons a

/-- Nothing is overridden exactly if no declared name is given twice. -/
theorem lasting_eq_self_iff : lasting declared given = given
    ↔ ((given.map Prod.fst).filter (· ∈ declared)).Nodup := by
  induction given with
  | nil => simp [lasting]
  | cons a rest ih =>
      rw [List.map_cons]
      by_cases known : a.1 ∈ declared
      · rw [List.filter_cons_of_pos (by simpa using known),
          List.nodup_cons, ← ih, List.mem_filter]
        by_cases again : a.1 ∈ rest.map Prod.fst
        · -- it would be shorter than what is given
          rw [lasting_of_overridden known again]
          have short := (sublist_lasting declared rest).length_le
          constructor
          · intro same
            rw [same, List.length_cons] at short
            omega
          · rintro ⟨fresh, -⟩
            exact absurd ⟨again, decide_eq_true known⟩ fresh
        · rw [lasting_of_last fun _ => again]
          simp [again]
      · rw [List.filter_cons_of_neg (by simpa using known), ← ih,
          lasting_of_last fun there => absurd there known]
        simp

/-- What is given besides is never overridden. -/
theorem filter_lasting : (lasting declared given).filter (·.1 ∉ declared)
    = given.filter (·.1 ∉ declared) := by
  induction given with
  | nil => rfl
  | cons a rest ih =>
      by_cases known : a.1 ∈ declared
      · rw [List.filter_cons_of_neg (by simpa using known)]
        by_cases again : a.1 ∈ rest.map Prod.fst
        · rw [lasting_of_overridden known again, ih]
        · rw [lasting_of_last fun _ => again,
            List.filter_cons_of_neg (by simpa using known), ih]
      · rw [lasting_of_last fun there => absurd there known,
          List.filter_cons_of_pos (by simpa using known),
          List.filter_cons_of_pos (by simpa using known), ih]

/-- Of a declared name there is one argument left. -/
theorem nodup_lasting :
    ((lasting declared given).filter (·.1 ∈ declared)).Nodup := by
  induction given with
  | nil => exact .nil
  | cons a rest ih =>
      by_cases known : a.1 ∈ declared
      · by_cases again : a.1 ∈ rest.map Prod.fst
        · rwa [lasting_of_overridden known again]
        · rw [lasting_of_last fun _ => again,
            List.filter_cons_of_pos (by simpa using known)]
          refine List.nodup_cons.2 ⟨fun there => again ?_, ih⟩
          have inRest := (sublist_lasting declared rest).subset
            (List.mem_filter.1 there).1
          exact List.mem_map_of_mem inRest
      · rwa [lasting_of_last fun there => absurd there known,
          List.filter_cons_of_neg (by simpa using known)]

/-- It is the one that is found from behind. -/
theorem lookup_of_mem_lasting (h : a ∈ lasting declared given)
    (known : a.1 ∈ declared) : given.reverse.lookup a.1 = some a.2 := by
  induction given with
  | nil => cases h
  | cons b rest ih =>
      rw [List.reverse_cons, List.lookup_append]
      by_cases again : b.1 ∈ declared ∧ b.1 ∈ rest.map Prod.fst
      · rw [lasting_of_overridden again.1 again.2] at h
        rw [ih h, Option.some_or]
      · have last : b.1 ∈ declared → b.1 ∉ rest.map Prod.fst :=
          fun there other => again ⟨there, other⟩
        rw [lasting_of_last last] at h
        rcases List.mem_cons.1 h with rfl | h
        · have none : rest.reverse.lookup a.1 = none := by
            refine List.lookup_eq_none_iff.2 fun c hc => ?_
            have other : a.1 ≠ c.1 := by
              intro same
              apply last known
              rw [same]
              exact List.mem_map_of_mem (List.mem_reverse.1 hc)
            simpa using other
          rw [none, Option.none_or, List.lookup_cons, beq_self_eq_true]
        · rw [ih h, Option.some_or]

/-- What is not overridden is among the completed arguments, as often as
it was given. -/
theorem lasting_subperm (declared : List Name)
    (given : List (Name × Term)) :
    (lasting declared given).Subperm (completeNamed declared given) := by
  have parts := List.filter_append_perm
    (fun a : Name × Term => decide (a.1 ∈ declared))
    (lasting declared given)
  refine parts.subperm_right.1 ?_
  rw [completeNamed_eq]
  apply List.Subperm.append
  · apply List.subperm_of_subset nodup_lasting
    intro a ha
    obtain ⟨there, known⟩ := List.mem_filter.1 ha
    have known : a.1 ∈ declared := of_decide_eq_true known
    refine List.mem_map.2 ⟨a.1, known, ?_⟩
    rw [lookup_of_mem_lasting there known]
    rfl
  · have besides : (lasting declared given).filter
          (fun a => !decide (a.1 ∈ declared))
        = given.filter (·.1 ∉ declared) := by
      rw [← filter_lasting]
      simp
    rw [besides]

/-- The values of a completed argument: those given, if its name is not
declared, and else the last of them, or a hole, wherever it is. -/
theorem valuesOf_completeNamed (x : Name) (declared : List Name)
    (given : List (Name × Term)) :
    valuesOf x (completeNamed declared given)
      = if x ∈ declared then
          List.replicate (declared.count x)
            ((valuesOf x given).head?.getD (.hole none))
        else valuesOf x given := by
  have besides : valuesOf x (given.filter (·.1 ∉ declared))
      = if x ∉ declared then valuesOf x given else [] := by
    rw [valuesOf_filter fun y => decide (y ∉ declared)]
    simp only [decide_eq_true_eq]
  rw [completeNamed_eq, valuesOf_append, valuesOf_map_pair, besides,
    head?_valuesOf]
  by_cases known : x ∈ declared
  · simp [known]
  · simp [known, List.count_eq_zero_of_not_mem known]

end

namespace Registry

variable (r : Registry)

-- ===================================================== applications

/-- The implicit arguments of a head where names are bound: those that
are recorded for it, if it is a definition there. -/
def implicitsAt (bound : List Name) (fn : Term) : List Name :=
  match definitionHead? bound fn with
  | some x => r.implicitsOf x
  | none => []

theorem completeFor_eq_completeNamed (x : Name)
    (given : List (Name × Term)) :
    r.completeFor x given = completeNamed (r.implicitsOf x) given := by
  unfold completeFor
  cases r.implicitsOf x with
  | nil => simp [completeNamed]
  | cons y names => rfl

/-- An application is completed part by part, and then by what its head
has for implicit arguments. -/
theorem supplyUnder_app (bound : List Name) (fn : Term)
    (named : List (Name × Term)) (args : List Term) (σ : Option Span) :
    r.supplyUnder bound (.app fn named args σ)
      = .app (r.supplyUnder bound fn)
        (completeNamed (r.implicitsAt bound fn)
          (named.map (Prod.map id (r.supplyUnder bound))))
        (args.map (r.supplyUnder bound)) σ := by
  rw [supplyUnder, supplyNamed_eq_map, supplyAll_eq_map, implicitsAt]
  cases head : definitionHead? bound fn with
  | none => simp [completeNamed]
  | some x =>
      dsimp only
      rw [completeFor_eq_completeNamed]
      cases fn with
      | ref y τ => rw [supplyUnder]
      | _ => cases head

-- ============================================================ paths

/-- The step leads to an argument that is overridden: its name is one of
the head's implicit arguments, and it is given again. -/
def Overridden (bound : List Name) : Term → Step → Prop
  | .app fn _ _ _, .named x behind =>
    x ∈ r.implicitsAt bound fn ∧ behind ≠ 0
  | _, _ => False

/-- No step of the path leads to an argument that is overridden. -/
def Lasts : List Name → Term → List Step → Prop
  | _, _, [] => True
  | bound, t, step :: path => ¬ r.Overridden bound t step
    ∧ ∀ binders u, t.part? step = some (binders, u) →
      Lasts (binders ++ bound) u path

variable {bound bound' binders : List Name} {t u : Term} {step : Step}

/-- A step that leads to no overridden argument leads to the same part of
the completed term, which is completed under what is bound there. -/
theorem part?_supplyUnder (found : t.part? step = some (binders, u))
    (lasts : ¬ r.Overridden bound t step) :
    (r.supplyUnder bound t).part? step
      = some (binders, r.supplyUnder (binders ++ bound) u) := by
  cases t with
  | app fn named args σ =>
      rw [supplyUnder_app]
      cases step with
      | head =>
          cases found
          rfl
      | named x behind =>
          obtain ⟨v, given, same⟩ := Option.map_eq_some_iff.1 found
          cases same
          have value : (valuesOf x (completeNamed (r.implicitsAt bound fn)
                (named.map (Prod.map id (r.supplyUnder bound)))))[behind]?
              = some (r.supplyUnder bound u) := by
            rw [valuesOf_completeNamed, valuesOf_map]
            by_cases known : x ∈ r.implicitsAt bound fn
            · -- it is the last one, and there is a place for it
              have last : behind = 0 := by
                by_contra other
                exact lasts ⟨known, other⟩
              have place := List.count_pos_iff.2 known
              rw [if_pos known, last, List.getElem?_replicate,
                if_pos place, List.head?_map, List.head?_eq_getElem?,
                ← last, given]
              rfl
            · rw [if_neg known, List.getElem?_map, given]
              rfl
          rw [part?, value]
          rfl
      | arg i =>
          obtain ⟨v, given, same⟩ := Option.map_eq_some_iff.1 found
          cases same
          rw [part?, List.getElem?_map, given]
          rfl
      | type | body => cases found
  | quote body σ | hidden body σ | lam x type body σ
  | pi p x type body σ =>
      rw [supplyUnder]
      cases step <;> cases found <;> rfl
  | ref | hole | set => cases step <;> cases found

/-- The same of a path. -/
theorem partAt?_supplyUnder {path : List Step}
    (found : t.partAt? bound path = some (bound', u))
    (lasts : r.Lasts bound t path) :
    (r.supplyUnder bound t).partAt? bound path
      = some (bound', r.supplyUnder bound' u) := by
  induction path generalizing bound t with
  | nil =>
      cases found
      rfl
  | cons step path ih =>
      rw [partAt?] at found
      split at found
      next binders c there =>
        have next := r.part?_supplyUnder there lasts.1
        rw [partAt?_cons next]
        exact ih found (lasts.2 binders c there)
      next => cases found

/-- Wherever an application stands in a term, unless in an argument that is
overridden, there is its completion in the completed term. It starts with
the implicit arguments that are recorded for its head, if the head is a
definition, in their order, each with the last value given for it or a
hole; then come the arguments given besides, in their order. Every
argument that was given and is not overridden is there, completed itself,
as often as it was given; and if no recorded name is given twice, none is
overridden. -/
theorem supply_keeps_given {path : List Step} {fn : Term}
    {named : List (Name × Term)} {args : List Term} {σ : Option Span}
    (found : t.partAt? [] path = some (bound, .app fn named args σ))
    (lasts : r.Lasts [] t path) :
    let declared := r.implicitsAt bound fn
    let given := named.map (Prod.map id (r.supplyUnder bound))
    ∃ completed, (r.supply t).partAt? [] path
        = some (bound, .app (r.supplyUnder bound fn) completed
          (args.map (r.supplyUnder bound)) σ)
      ∧ completed = (declared.map fun x =>
          (x, (given.reverse.lookup x).getD (.hole none)))
        ++ given.filter (·.1 ∉ declared)
      ∧ (lasting declared given).Subperm completed
      ∧ (((named.map Prod.fst).filter (· ∈ declared)).Nodup →
        given.Subperm completed) := by
  intro declared given
  have kept := lasting_subperm declared given
  refine ⟨completeNamed declared given, ?_, rfl, kept, fun once => ?_⟩
  · have there := r.partAt?_supplyUnder found lasts
    rwa [supplyUnder_app] at there
  · have names : given.map Prod.fst = named.map Prod.fst := by
      rw [List.map_map]
      rfl
    rw [← names] at once
    rwa [lasting_eq_self_iff.2 once] at kept

/-- A call in the scope of a binder that gives one recorded name twice, and
another name that is not recorded twice as well: of the first the last
value is kept, of the second both. -/
theorem supply_keeps_given_overridden :
    let x := Name.ofText "x"
    let f := Name.ofText "f"
    let a := Name.ofText "a"
    let b := Name.ofText "b"
    let c := Name.ofText "c"
    let named := [(b, .ref x none), (c, .ref x none), (b, .set none),
      (c, .hole none)]
    let call : Term := .app (.ref f none) named [.ref x none] none
    let t : Term := .lam x (.set none)
      (.app (.ref x none) [] [call] none) none
    let r := Registry.define {} f [a, b]
    t.partAt? [] [.body, .arg 0] = some ([x], call)
      ∧ r.Lasts [] t [.body, .arg 0]
      ∧ ∃ completed, (r.supply t).partAt? [] [.body, .arg 0]
          = some ([x], .app (.ref f none) completed [.ref x none] none)
        ∧ completed = [(a, .hole none), (b, .set none), (c, .ref x none),
          (c, .hole none)] := by
  intro x f a b c named call t r
  have found : t.partAt? [] [.body, .arg 0] = some ([x], call) := rfl
  have lasts : r.Lasts [] t [.body, .arg 0] := by
    simp [Lasts, Overridden, t, part?]
  obtain ⟨completed, there, exact_list, -, -⟩ :=
    supply_keeps_given r found lasts
  exact ⟨found, lasts, completed, there, exact_list⟩

/-- An argument that is overridden is lost, though the user wrote it. -/
theorem supply_drops_given :
    let f := Name.ofText "f"
    let a := Name.ofText "a"
    let x : Term := .ref (.ofText "x") none
    let y : Term := .ref (.ofText "y") none
    let r := Registry.define {} f [a]
    r.supply (.app (.ref f none) [(a, x), (a, y)] [.set none] none)
      = .app (.ref f none) [(a, y)] [.set none] none :=
  rfl

end Registry

end DepLang
