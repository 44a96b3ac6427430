/-
Choices within choices. A choice that stands among the alternatives of
another one can be replaced by its own alternatives, in their place:
what is found is the same, or the failure with all it expects, and so is
the state, with every failure that was met on the way.

A choice that fails has taken back whatever its alternatives did, so the
attempt around it has nothing left to undo (`attempt_choice`). And it
fails with their failures merged, which the outer choice merges with
those before; that the brackets make no difference is
`Failure.merge_assoc`.
-/
import DepLang.Proofs.Diagnostic.Merge
import DepLang.Proofs.Script.Built

namespace DepLang

open DepLang.Grammar DepLang.Parser

namespace Parser

variable {α : Type} {p : Parser α} {ps qs rs : List (Parser α)}

-- ================================================= inner attempts

/-- If an attempt fails for good, so does what was tried after it. -/
theorem attemptElse_error {otherwise : Failure → Parser α} {inp : Input}
    {f : Failure} {s t : State}
    (h : attemptElse p otherwise inp s = .error f t) :
    ∃ e u, attempt p inp s = .error e u
      ∧ otherwise e inp u = .error f t := by
  unfold attemptElse at h
  cases run : attempt p inp s with
  | ok a u =>
      rw [run] at h
      cases h
  | error e u =>
      rw [run] at h
      exact ⟨e, u, rfl, h⟩
  | defect d u =>
      rw [run] at h
      cases h

/-- Steady alternatives that all fail leave the cursor and the registry
as they were. -/
theorem choiceAfter_error (steady : ∀ q ∈ qs, Steady q) {inp : Input}
    {e f : Failure} {s t : State}
    (h : choiceAfter e qs inp s = .error f t) :
    t.cursor = s.cursor ∧ t.registry = s.registry := by
  induction qs generalizing e s with
  | nil =>
      cases h
      exact ⟨rfl, rfl⟩
  | cons q qs ih =>
      obtain ⟨first, others⟩ := List.forall_mem_cons.1 steady
      rw [choiceAfter_cons] at h
      obtain ⟨e', u, run, rest⟩ := attemptElse_error h
      obtain ⟨cursor, registry⟩ := attempt_error first run
      obtain ⟨cursor', registry'⟩ := ih others rest
      exact ⟨cursor'.trans cursor, registry'.trans registry⟩

theorem choice_error (steady : ∀ q ∈ qs, Steady q) {inp : Input}
    {e : Failure} {s t : State} (h : choice qs inp s = .error e t) :
    t.cursor = s.cursor ∧ t.registry = s.registry := by
  cases qs with
  | nil => cases h
  | cons q qs =>
      obtain ⟨first, others⟩ := List.forall_mem_cons.1 steady
      rw [choice_cons] at h
      obtain ⟨e', u, run, rest⟩ := attemptElse_error h
      obtain ⟨cursor, registry⟩ := attempt_error first run
      obtain ⟨cursor', registry'⟩ := choiceAfter_error others rest
      exact ⟨cursor'.trans cursor, registry'.trans registry⟩

/-- Taking back nothing changes nothing. -/
theorem rewind_eq_self {s t : State} (cursor : t.cursor = s.cursor)
    (registry : t.registry = s.registry) : rewind s t = t := by
  unfold rewind
  rw [← cursor, ← registry, Registry.restore_snapshot]

/-- An attempt at a choice is the choice. -/
theorem attempt_choice (steady : ∀ q ∈ qs, Steady q) :
    attempt (choice qs) = choice qs := by
  funext inp s
  unfold attempt
  cases run : choice qs inp s with
  | ok a t => rfl
  | error e t =>
      obtain ⟨cursor, registry⟩ := choice_error steady run
      show Outcome.error e (rewind s t) = _
      rw [rewind_eq_self cursor registry]
  | defect d t => rfl

-- ===================================================== flattening

/-- Alternatives that are tried after others have failed, with whatever
failure they start from, if only it is merged from the left. -/
theorem choiceAfter_append {g : Failure → Failure}
    (merges : ∀ e f, g (e.merge f) = (g e).merge f)
    (qs rs : List (Parser α)) (inp : Input) (e : Failure) (s : State) :
    choiceAfter (g e) (qs ++ rs) inp s =
      match choiceAfter e qs inp s with
      | .ok a t => .ok a t
      | .error f t => choiceAfter (g f) rs inp t
      | .defect d t => .defect d t := by
  induction qs generalizing e s with
  | nil => rfl
  | cons q qs ih =>
      rw [List.cons_append, choiceAfter_cons, choiceAfter_cons]
      simp only [attemptElse]
      cases attempt q inp s with
      | ok a t => rfl
      | error f t =>
          have rest := ih (e.merge f) t
          rw [merges] at rest
          exact rest
      | defect d t => rfl

/-- An alternative that is a choice itself, and what is tried after
it. -/
theorem attemptElse_choice {g : Failure → Failure}
    (merges : ∀ e f, g (e.merge f) = (g e).merge f) (q : Parser α)
    (qs rs : List (Parser α)) (steady : ∀ p ∈ q :: qs, Steady p) :
    attemptElse (choice (q :: qs)) (fun e => choiceAfter (g e) rs)
      = attemptElse q fun e => choiceAfter (g e) (qs ++ rs) := by
  funext inp s
  unfold attemptElse
  rw [attempt_choice steady, choice_cons, attemptElse]
  cases attempt q inp s with
  | ok a t => rfl
  | error e t => exact (choiceAfter_append merges qs rs inp e t).symm
  | defect d t => rfl

/-- After other alternatives, a choice is its alternatives. -/
theorem choiceAfter_choice (ps rs : List (Parser α)) (some : qs ≠ [])
    (steady : ∀ q ∈ qs, Steady q) (e : Failure) :
    choiceAfter e (ps ++ choice qs :: rs)
      = choiceAfter e (ps ++ qs ++ rs) := by
  induction ps generalizing e with
  | nil =>
      obtain ⟨q, qs, rfl⟩ := List.exists_cons_of_ne_nil some
      have merges := fun f g => (Failure.merge_assoc e f g).symm
      rw [List.nil_append, List.nil_append, List.cons_append,
        choiceAfter_cons, choiceAfter_cons,
        attemptElse_choice merges q qs rs steady]
  | cons p ps ih =>
      simp only [List.cons_append, choiceAfter_cons, ih]

/-- A choice among alternatives is its own alternatives in its place. -/
theorem choice_choice (ps rs : List (Parser α)) (some : qs ≠ [])
    (steady : ∀ q ∈ qs, Steady q) :
    choice (ps ++ choice qs :: rs) = choice (ps ++ qs ++ rs) := by
  cases ps with
  | nil =>
      obtain ⟨q, qs, rfl⟩ := List.exists_cons_of_ne_nil some
      calc choice (choice (q :: qs) :: rs)
          = attemptElse (choice (q :: qs)) fun e => choiceAfter e rs :=
            choice_cons _ _
        _ = attemptElse q fun e => choiceAfter e (qs ++ rs) :=
            attemptElse_choice (g := id) (fun _ _ => rfl) q qs rs steady
        _ = choice (q :: (qs ++ rs)) := (choice_cons _ _).symm
  | cons p ps =>
      simp only [List.cons_append, choice_cons,
        choiceAfter_choice ps rs some steady]

/-- Choosing is associative. Programs that are a choice within a choice
can stand among its alternatives themselves: from every state the outcome
is the same, be it a value or a failure with its complaint, its span and
its expectations in their order, and so is the state it leaves, with its
cursor, its registry, its events and the furthest failure met. For
merging failures is associative, wherever they stand and whatever they
expect. -/
theorem choice_assoc :
    (∀ e f g : Failure, (e.merge f).merge g = e.merge (f.merge g))
      ∧ ∀ {α : Type} (ps qs rs : List (Parser α)), qs ≠ [] →
        (∀ q ∈ qs, Built q) → ∀ inp s,
        choice (ps ++ choice qs :: rs) inp s
          = choice (ps ++ qs ++ rs) inp s := by
  refine ⟨Failure.merge_assoc, fun ps qs rs some built inp s => ?_⟩
  rw [choice_choice ps rs some fun q hq => (built q hq).selfAlike.steady]

/-- Alternatives that all fail, two of them as far as the last one gets
and with an expectation in common, one of which has declared an operator
before: the furthest ones are merged in their order. -/
theorem choice_assoc_failing :
    let inp : Input :=
      { tokens := #[⟨.ident "x", ⟨0, 1⟩⟩, ⟨.ident "y", ⟨2, 3⟩⟩]
        endSpelling := ""
        endSpan := ⟨3, 3⟩
        origin := ⟨"m", some "x y"⟩
        language := .standard }
    let p : Script Unit := .seq [.identifier, .natural]
    let q : Script Unit := .symbol "="
    let q' : Script Unit :=
      .seq [.declareFixities [⟨⟨.left, 6⟩, "+"⟩], .identifier, .operator]
    let r : Script Unit :=
      .seq [.identifier, .fail ["operator", "term"] none]
    let nested := choice [p.parser, choice [q.parser, q'.parser], r.parser]
    ∃ e t, nested inp {} = .error e t
      ∧ e = ⟨.unexpected (.ident "y"), ⟨2, 3⟩,
        ["natural number", "operator", "term"], inp.origin⟩
      ∧ t.furthest = some e ∧ t.registry.fixities = [] ∧ t.cursor = 0 := by
  intro inp p q q' r nested
  have built : ∀ x ∈ [q.parser, q'.parser], Built x := by
    intro x hx
    rcases List.mem_cons.1 hx with rfl | hx
    · exact q.built (by decide)
    · cases List.mem_singleton.1 hx
      exact q'.built (by decide)
  have flat := choice_assoc.2 [p.parser] [q.parser, q'.parser] [r.parser]
    (List.cons_ne_nil _ _) built inp {}
  exact ⟨_, _, flat.trans rfl, rfl, rfl, rfl, rfl⟩

end Parser

end DepLang
