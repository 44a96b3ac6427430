/-
Where the calls of a completed term come from. Completion makes no
application: each one in a completed term is the completion of one in
the term that it was made of, with the same names bound around it. So of
every call in the result it can be said what it was written with: its
names are these and those recorded for its head, unless that is bound
there (`call_of_supply`).

This is the converse of `partAt?_supplyUnder`. No argument has to be left
out for it; but a part of the result can also be a hole that has been put
in, and a hole has no parts.
-/
import DepLang.Proofs.Implicit.Given

namespace DepLang

open Term

-- =========================================================== calls

/-- A call, which is an application of a name: what is bound around it,
its head, the names of the arguments that are given by name, and its
span. -/
structure Call where
  bound : List Name
  head : Name
  names : List Name
  span : Option Span
  deriving DecidableEq

namespace Term

/-- The term as a call where names are bound, if it is one. -/
def call? (bound : List Name) : Term → Option Call
  | .app (.ref x _) named _ σ => some ⟨bound, x, named.map Prod.fst, σ⟩
  | _ => none

/-- The call at the end of a path. -/
def callAt? (t : Term) (path : List Step) : Option Call :=
  (t.partAt? [] path).bind fun part => part.2.call? part.1

end Term

-- ======================================================== arguments

/-- Completion leaves the names of arguments as they are if those that
are declared come first, and not again. -/
theorem names_complete_iff (declared names : List Name) :
    declared ++ names.filter (· ∉ declared) = names
      ↔ ∃ others, names = declared ++ others
        ∧ ∀ y ∈ others, y ∉ declared := by
  constructor
  · intro same
    refine ⟨_, same.symm, fun y hy => ?_⟩
    exact of_decide_eq_true (List.mem_filter.1 hy).2
  · rintro ⟨others, rfl, besides⟩
    have first : declared.filter (· ∉ declared) = [] := by simp
    have rest : others.filter (· ∉ declared) = others :=
      List.filter_eq_self.2 fun y hy => decide_eq_true (besides y hy)
    rw [List.filter_append, first, rest, List.nil_append]

namespace Registry

-- ================================================== completed parts

variable (r : Registry) {bound bound' binders : List Name} {t u : Term}

/-- A part of a completed term is a completed part of the term, or a hole
that completion has put in. -/
theorem part?_of_supplyUnder {step : Step}
    (found : (r.supplyUnder bound t).part? step = some (binders, u)) :
    u = .hole none ∨ ∃ step' v, t.part? step' = some (binders, v)
      ∧ u = r.supplyUnder (binders ++ bound) v := by
  cases t with
  | app fn named args σ =>
      rw [supplyUnder_app] at found
      cases step with
      | head =>
          cases found
          exact .inr ⟨.head, fn, rfl, rfl⟩
      | named x behind =>
          obtain ⟨w, value, same⟩ := Option.map_eq_some_iff.1 found
          cases same
          rw [valuesOf_completeNamed, valuesOf_map] at value
          by_cases known : x ∈ r.implicitsAt bound fn
          · -- the last value given, wherever it stands now, or a hole
            rw [if_pos known, List.getElem?_replicate, List.head?_map,
              List.head?_eq_getElem?] at value
            cases last : (valuesOf x named)[0]? with
            | none =>
                rw [last] at value
                cases (Option.ite_none_right_eq_some.1 value).2
                exact .inl rfl
            | some v =>
                rw [last] at value
                cases (Option.ite_none_right_eq_some.1 value).2
                exact .inr ⟨.named x 0, v,
                  congrArg (Option.map ([], ·)) last, rfl⟩
          · rw [if_neg known, List.getElem?_map] at value
            obtain ⟨v, given, rfl⟩ := Option.map_eq_some_iff.1 value
            exact .inr ⟨.named x behind, v,
              congrArg (Option.map ([], ·)) given, rfl⟩
      | arg i =>
          obtain ⟨w, value, same⟩ := Option.map_eq_some_iff.1 found
          cases same
          rw [List.getElem?_map] at value
          obtain ⟨v, given, rfl⟩ := Option.map_eq_some_iff.1 value
          exact .inr ⟨.arg i, v,
            congrArg (Option.map ([], ·)) given, rfl⟩
      | type | body => cases found
  | quote body σ | hidden body σ =>
      rw [supplyUnder] at found
      cases step <;> cases found
      exact .inr ⟨.body, body, rfl, rfl⟩
  | lam x type body σ | pi p x type body σ =>
      rw [supplyUnder] at found
      cases step <;> cases found
      · exact .inr ⟨.type, type, rfl, rfl⟩
      · exact .inr ⟨.body, body, rfl, rfl⟩
  | ref | hole | set => cases step <;> cases found

/-- The same of a part that stands deeper. -/
theorem partAt?_of_supplyUnder {path : List Step}
    (found : (r.supplyUnder bound t).partAt? bound path = some (bound', u)) :
    u = .hole none ∨ ∃ path' v, t.partAt? bound path' = some (bound', v)
      ∧ u = r.supplyUnder bound' v := by
  induction path generalizing bound t with
  | nil =>
      cases found
      exact .inr ⟨[], t, rfl, rfl⟩
  | cons step path ih =>
      rw [partAt?] at found
      split at found
      next binders c there =>
        rcases r.part?_of_supplyUnder there
          with rfl | ⟨step', v, from_v, rfl⟩
        · -- the path ends at the hole
          cases path with
          | nil =>
              cases found
              exact .inl rfl
          | cons step path => cases found
        · rcases ih found with rfl | ⟨path', w, inside, rfl⟩
          · exact .inl rfl
          · exact .inr ⟨step' :: path', w,
              by rw [partAt?_cons from_v, inside], rfl⟩
      next => cases found

-- ================================================== completed calls

/-- Completing a call changes its names, unless its head is bound. -/
theorem call?_supplyUnder (bound : List Name) (t : Term) :
    (r.supplyUnder bound t).call? bound
      = (t.call? bound).map fun call =>
        { call with
          names := if call.head ∈ call.bound then call.names else
            r.implicitsOf call.head
              ++ call.names.filter (· ∉ r.implicitsOf call.head) } := by
  cases t with
  | app fn named args σ =>
      have kept : (named.map (Prod.map id (r.supplyUnder bound))).map
          Prod.fst = named.map Prod.fst := by
        rw [List.map_map]
        rfl
      rw [supplyUnder_app]
      cases fn with
      | ref x τ =>
          rw [supplyUnder, call?, map_fst_completeNamed, kept, implicitsAt,
            definitionHead?]
          by_cases inside : x ∈ bound <;> simp [call?, inside]
      | app =>
          rw [supplyUnder_app]
          rfl
      | _ =>
          rw [supplyUnder]
          rfl
  | _ =>
      rw [supplyUnder]
      rfl

/-- A call in a completed term, of whatever name, was written where it
stands, with the same head and the same span. A call of a name bound
around it has the names it was written with, and any other call those
recorded for its head and then what was written besides. -/
theorem call_of_supply {path : List Step} {call : Call}
    (found : (r.supply t).callAt? path = some call) :
    ∃ path' given, t.callAt? path' = some { call with names := given }
      ∧ call.names = if call.head ∈ call.bound then given else
        r.implicitsOf call.head
          ++ given.filter (· ∉ r.implicitsOf call.head) := by
  obtain ⟨⟨bound, u⟩, there, is_call⟩ := Option.bind_eq_some_iff.1 found
  rcases r.partAt?_of_supplyUnder there with rfl | ⟨path', v, inside, rfl⟩
  · cases is_call
  · rw [call?_supplyUnder] at is_call
    obtain ⟨written, called, rfl⟩ := Option.map_eq_some_iff.1 is_call
    refine ⟨path', written.names, ?_, rfl⟩
    rw [callAt?, inside]
    exact called

end Registry

end DepLang
