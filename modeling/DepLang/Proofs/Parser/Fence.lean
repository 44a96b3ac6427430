/-
Two inputs that agree up to a semicolon. A parser that stays inside a
declaration runs alike over both, from one cursor and one registry up to
the same cursor and registry: the semicolon is a fence, and what lies
beyond it, or whether the input ends there, is never looked at
(`Inside.fenced`).

What came before the two runs may differ, as may the failures that they
meet: what a failure blames lies before the fence, but its origin need
not be the same.
-/
import DepLang.Proofs.Parser.Inside
import DepLang.Proofs.Parser.Simulation

namespace DepLang

/-- Two inputs with the same tokens up to a semicolon. -/
structure Input.Fence (inp inp' : Input) (m : Nat) : Prop where
  language : inp.language = inp'.language
  token : ∀ i ≤ m, inp.tokenAt i = inp'.tokenAt i
  semicolon : (inp.tokenAt m).kind = .mark .semicolon

/-- States at one cursor, not past the fence, with one registry. -/
structure State.Beside (m : Nat) (s s' : State) : Prop where
  cursor : s.cursor = s'.cursor
  le : s.cursor ≤ m
  registry : s.registry = s'.registry

namespace Parser

variable {α β : Type} {inp inp' : Input} {m : Nat} {free : Bool}

/-- Is the token at the cursor no semicolon, as far as that is known? -/
def Knows (inp : Input) (free : Bool) (s : State) : Prop :=
  free = true → (inp.tokenAt s.cursor).kind ≠ .mark .semicolon

theorem knows_nothing (inp : Input) (s : State) : Knows inp false s :=
  fun h => by cases h

/-- Outcomes that come to the same, beside one another. -/
abbrev EndsBeside (m : Nat) : Outcome α → Outcome α → Prop :=
  Outcome.Matches .same (fun _ _ => True) (State.Beside m)

/-- Parsers that run alike, one over each input, before the fence. -/
def Fenced (inp inp' : Input) (m : Nat) (free : Bool)
    (p p' : Parser α) : Prop :=
  ∀ s s', s.Beside m s' → Knows inp free s →
    EndsBeside m (p inp s) (p' inp' s')

/-- What is known need not be used. -/
theorem Fenced.known {p p' : Parser α} (h : Fenced inp inp' m false p p') :
    Fenced inp inp' m free p p' :=
  fun s s' start _ => h s s' start (knows_nothing inp s)

-- ===================================================== combinators

theorem Fenced.bind {p p' : Parser α} {f f' : α → Parser β}
    (first : Fenced inp inp' m free p p')
    (next : ∀ a, Fenced inp inp' m false (f a) (f' a)) :
    Fenced inp inp' m free (p >>= f) (p' >>= f') := by
  intro s s' start known
  have begun := first s s' start known
  rw [bind_apply, bind_apply]
  generalize p inp s = run at begun
  generalize p' inp' s' = run' at begun
  cases begun with
  | @ok a _ t t' value state =>
      cases value
      exact next a t t' state (knows_nothing inp t)
  | error failure state => exact .error failure state
  | defect d state => exact .defect d state

theorem Fenced.attempt {p p' : Parser α}
    (h : Fenced inp inp' m free p p') :
    Fenced inp inp' m free (attempt p) (attempt p') := by
  intro s s' start known
  have body := h s s' start known
  unfold Parser.attempt
  generalize p inp s = run at body
  generalize p' inp' s' = run' at body
  cases body with
  | ok value state => exact .ok value state
  | @error e e' t t' failure state =>
      refine .error trivial ⟨start.cursor, start.le, ?_⟩
      show t.registry.restore s.registry.snapshot
        = t'.registry.restore s'.registry.snapshot
      rw [state.registry, start.registry]
  | defect d state => exact .defect d state

/-- What is known of the token at the cursor is known again after a
failed attempt, which goes back to it. -/
theorem Fenced.attemptElse {p p' : Parser α} {k k' : Failure → Parser α}
    (steady : Steady p) (h : Fenced inp inp' m free p p')
    (otherwise : ∀ e e', Fenced inp inp' m free (k e) (k' e')) :
    Fenced inp inp' m free (attemptElse p k) (attemptElse p' k') := by
  intro s s' start known
  have first := h.attempt s s' start known
  unfold Parser.attemptElse
  cases run : Parser.attempt p inp s with
  | ok a t =>
      rw [run] at first
      generalize Parser.attempt p' inp' s' = run' at first
      cases first with
      | ok value state => exact .ok value state
  | error e t =>
      rw [run] at first
      generalize Parser.attempt p' inp' s' = run' at first
      cases first with
      | error failure state =>
          refine otherwise _ _ _ _ state ?_
          unfold Knows
          rw [(attempt_error steady run).1]
          exact known
  | defect d t =>
      rw [run] at first
      generalize Parser.attempt p' inp' s' = run' at first
      cases first with
      | defect _ state => exact .defect d state

theorem fenced_choiceAfter {ps : List (Parser α)}
    (steady : ∀ p ∈ ps, Steady p)
    (each : ∀ p ∈ ps, Fenced inp inp' m free p p) :
    ∀ failed failed', Fenced inp inp' m free
      (choiceAfter failed ps) (choiceAfter failed' ps) := by
  induction ps with
  | nil => exact fun _ _ _ _ start _ => .error trivial start
  | cons p ps ih =>
      intro failed failed'
      have rest := ih (fun q hq => steady q (List.mem_cons_of_mem p hq))
        fun q hq => each q (List.mem_cons_of_mem p hq)
      rw [choiceAfter_cons, choiceAfter_cons]
      exact (each p List.mem_cons_self).attemptElse
        (steady p List.mem_cons_self) fun e e' => rest _ _

theorem fenced_choice {ps : List (Parser α)}
    (steady : ∀ p ∈ ps, Steady p)
    (each : ∀ p ∈ ps, Fenced inp inp' m free p p) :
    Fenced inp inp' m free (choice ps) (choice ps) := by
  cases ps with
  | nil => exact fun _ _ start _ => .defect .emptyChoice start
  | cons p ps =>
      rw [choice_cons]
      exact (each p List.mem_cons_self).attemptElse
        (steady p List.mem_cons_self) <|
        fenced_choiceAfter (fun q hq => steady q (List.mem_cons_of_mem p hq))
          fun q hq => each q (List.mem_cons_of_mem p hq)

theorem fenced_failWith (complaint : Option Complaint)
    (expected : List String) :
    Fenced inp inp' m free (failWith complaint expected : Parser α)
      (failWith complaint expected) :=
  fun _ _ start _ =>
    .error trivial ⟨start.cursor, start.le, start.registry⟩

-- ======================================================= the fence

section
variable (fence : inp.Fence inp' m)
include fence

/-- The fence lies before the end of the input. -/
theorem fence_lt_size : m < inp.tokens.size :=
  lt_size_of_kind fun ended => by
    rw [fence.semicolon] at ended
    cases ended

theorem fence_symm : inp'.Fence inp m where
  language := fence.language.symm
  token i h := (fence.token i h).symm
  semicolon := by
    rw [← fence.token m (Nat.le_refl m)]
    exact fence.semicolon

theorem beside_token {s s' : State} (h : s.Beside m s') :
    inp.tokenAt s.cursor = inp'.tokenAt s'.cursor := by
  rw [fence.token _ h.le, h.cursor]

/-- A token that is no semicolon can be read on both sides. -/
theorem beside_past {s s' : State} (h : s.Beside m s')
    (other : (inp.tokenAt s.cursor).kind ≠ .mark .semicolon) :
    (past inp s).Beside m (past inp' s') := by
  have before : s.cursor ≠ m := fun there => other (there ▸ fence.semicolon)
  have le := h.le
  unfold past
  rw [← beside_token fence h]
  split
  · exact h
  · refine ⟨?_, ?_, h.registry⟩
    · show s.cursor + 1 = s'.cursor + 1
      rw [h.cursor]
    · show s.cursor + 1 ≤ m
      omega

/-- Both sides make progress, or neither does. -/
theorem beside_progress {s s' t t' : State} (start : s.Beside m s')
    (later : t.Beside m t') :
    inp.remaining t < inp.remaining s
      ↔ inp'.remaining t' < inp'.remaining s' := by
  have inside := fence_lt_size fence
  have inside' := fence_lt_size (fence_symm fence)
  have := start.le
  have := later.le
  unfold Input.remaining
  rw [← start.cursor, ← later.cursor]
  omega

theorem fenced_accept {read : Language → Token → Option α}
    {expected : String}
    (other : ∀ lang t, t.kind = .mark .semicolon → read lang t = none) :
    Fenced inp inp' m free (accept read expected)
      (accept read expected) := by
  intro s s' start known
  unfold accept
  rw [← fence.language, ← beside_token fence start]
  cases found : read inp.language (inp.tokenAt s.cursor) with
  | none => exact fenced_failWith none [expected] s s' start known
  | some a =>
      refine .ok rfl (beside_past fence start fun semicolon => ?_)
      rw [other _ _ semicolon] at found
      cases found

theorem Fenced.loop {p : Parser (Option α)}
    (h : Fenced inp inp' m false p p) :
    Fenced inp inp' m false (loop p) (loop p) := by
  intro s s' start known
  have rounds := loop_matches (R := .same) (Knows inp false)
    (fun s s' start known => (h s s' start known).weaken ?_)
    (fun _ _ t _ _ => knows_nothing inp t)
    (fun _ _ _ _ _ _ _ _ start state =>
      beside_progress fence start state) s s' start known
  · exact rounds.weaken fun _ _ => Likeness.eq_of_same
  · rintro found _ rfl
    exact Likeness.refl _ found

-- ===================================================== all parsers

/-- Parsers that stay inside a declaration never look over the fence, as
far as nested expressions do not. -/
theorem Inside.fenced {e : Parser Term} {declares : Prop} {p : Parser α}
    (he : Steady e) (nested : Fenced inp inp' m false e e)
    (h : Inside e declares free p) : Fenced inp inp' m free p p := by
  induction h with
  | pure => exact fun _ _ start _ => .ok rfl start
  | bind _ _ first next => exact first.bind next
  | known _ ih => exact ih.known
  | nested => exact nested.known
  | look f =>
      intro s s' start _
      exact .ok (congrArg f (beside_token fence start)) start
  | @seen _ _ free f k other _ _ absent present =>
      intro s s' start known
      show EndsBeside m (k (f (inp.tokenAt s.cursor)) inp s)
        (k (f (inp'.tokenAt s'.cursor)) inp' s')
      rw [← beside_token fence start]
      cases found : f (inp.tokenAt s.cursor) with
      | none => exact absent s s' start known
      | some a =>
          refine present a s s' start fun _ semicolon => ?_
          rw [other _ semicolon] at found
          cases found
  | lastStop =>
      intro s s' start _
      refine .ok ?_ start
      show (inp.tokenAt (s.cursor - 1)).span.stop
        = (inp'.tokenAt (s'.cursor - 1)).span.stop
      rw [fence.token _ (Nat.le_trans (Nat.sub_le _ 1) start.le),
        start.cursor]
  | consult f =>
      exact fun s s' start _ => .ok (congrArg f start.registry) start
  | advance =>
      exact fun s s' start known => .ok (beside_token fence start)
        (beside_past fence start (known rfl))
  | accept other => exact fenced_accept fence other
  | failWith complaint _ => exact fenced_failWith complaint _
  | declareFixities _ entries =>
      intro s s' start _
      refine .ok rfl ⟨start.cursor, start.le, ?_⟩
      show s.registry.addFixities entries = s'.registry.addFixities entries
      rw [start.registry]
  | define _ name names =>
      intro s s' start _
      refine .ok rfl ⟨start.cursor, start.le, ?_⟩
      show s.registry.define name names = s'.registry.define name names
      rw [start.registry]
  | choice _ each ih =>
      exact fenced_choice (fun p hp => (each p hp).steady he) ih
  | optional body a ih =>
      rw [optional_eq]
      exact ih.attemptElse (body.steady he) fun _ _ _ _ start _ =>
        .ok rfl start
  | loop _ ih => exact (ih.loop fence).known

end

end Parser

end DepLang
