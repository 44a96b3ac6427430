/-
Runs side by side. A simulation relates the states of two runs, over
two inputs, such that every primitive keeps the relation; then every
parser that is built alike on both sides keeps it, and the two runs
find values that agree, or fail alike (`Alike.simulates`).

Rewinding is the one step of which this is not plain: where an attempt
fails, both sides go back to where it began, and that its states are in
relation again is known because rewinding brings back the cursor and
the registry of the start.

Nested expressions are simulated only as far as there is less of the
input left than a bound `n`. A parser that enters them after its first
token may itself start with `n` tokens left, so the theorem is the step
of an induction on what is left of the input.
-/
import DepLang.Proofs.Parser.Follows

namespace DepLang

-- ======================================================== outcomes

/-- Outcomes of the same kind with like values, failures that blame
alike, and states in relation. -/
inductive Outcome.Matches {α : Type} (R : Likeness α)
    (blame : Failure → Failure → Prop) (rel : State → State → Prop) :
    Outcome α → Outcome α → Prop
  | ok {a a' : α} {s s' : State} (value : R a a') (state : rel s s') :
      Matches R blame rel (.ok a s) (.ok a' s')
  | error {e e' : Failure} {s s' : State} (failure : blame e e')
      (state : rel s s') : Matches R blame rel (.error e s) (.error e' s')
  | defect {s s' : State} (d : Defect) (state : rel s s') :
      Matches R blame rel (.defect d s) (.defect d s')

namespace Outcome.Matches

variable {α : Type} {R : Likeness α} {blame : Failure → Failure → Prop}
  {rel : State → State → Prop} {o o' : Outcome α} {a a' : α}
  {t t' : State}

/-- What a match of two successes says. -/
theorem of_ok (h : Matches R blame rel (.ok a t) (.ok a' t')) :
    R a a' ∧ rel t t' := by
  cases h with
  | ok value state => exact ⟨value, state⟩

/-- Only a success matches a success. -/
theorem ok_left (h : Matches R blame rel (.ok a t) o') :
    ∃ a' t', o' = .ok a' t' ∧ R a a' ∧ rel t t' := by
  cases h with
  | ok value state => exact ⟨_, _, rfl, value, state⟩

theorem ok_right (h : Matches R blame rel o (.ok a' t')) :
    ∃ a t, o = .ok a t ∧ R a a' ∧ rel t t' := by
  cases h with
  | ok value state => exact ⟨_, _, rfl, value, state⟩

/-- What has found a value is matched by what has found a like one. -/
theorem found_left {o' : Outcome (Option α)}
    (h : Matches R.option blame rel (.ok (some a) t) o') :
    ∃ a' t', o' = .ok (some a') t' ∧ R a a' ∧ rel t t' := by
  obtain ⟨found, t', same, value, state⟩ := h.ok_left
  cases value with
  | some ha => exact ⟨_, t', same, ha, state⟩

theorem weaken {S : Likeness α} (h : Matches R blame rel o o')
    (value : ∀ x y, R x y → S x y) : Matches S blame rel o o' := by
  cases h with
  | ok found state => exact .ok (value _ _ found) state
  | error failure state => exact .error failure state
  | defect d state => exact .defect d state

end Outcome.Matches

namespace Parser

/-- Two loops match if their rounds do, as long as both make progress or
neither does. The left run is followed; what its states must meet for
the rounds to match is kept by them. -/
theorem loop_matches {α : Type} {R : Likeness α}
    {blame : Failure → Failure → Prop} {rel : State → State → Prop}
    {inp inp' : Input} {p p' : Parser (Option α)} (room : State → Prop)
    (round : ∀ s s', rel s s' → room s →
      Outcome.Matches R.option blame rel (p inp s) (p' inp' s'))
    (kept : ∀ s a t, p inp s = .ok (some a) t → room s → room t)
    (progress : ∀ s s' a a' t t', p inp s = .ok (some a) t →
      p' inp' s' = .ok (some a') t' → rel s s' → rel t t' →
      (inp.remaining t < inp.remaining s
        ↔ inp'.remaining t' < inp'.remaining s')) :
    ∀ s s', rel s s' → room s →
      Outcome.Matches R.list blame rel (loop p inp s) (loop p' inp' s') := by
  unfold Parser.loop
  intro s
  fun_induction loopFrom p inp s with
  | case1 s t run =>
      intro s' start there
      have both := round s s' start there
      rw [run] at both
      obtain ⟨found, t', run', value, state⟩ := both.ok_left
      cases value
      rw [loopFrom_apply p' inp' s', run']
      exact .ok .nil state
  | case2 s a t run less as u more ih =>
      intro s' start there
      have both := round s s' start there
      rw [run] at both
      obtain ⟨a', t', run', ha, state⟩ := both.found_left
      have less' := (progress s s' a a' t t' run run' start state).1 less
      have rest := ih t' state (kept s a t run there)
      rw [more] at rest
      obtain ⟨as', u', more', values, state⟩ := rest.ok_left
      rw [loopFrom_apply p' inp' s', run']
      simp only [if_pos less', more']
      exact .ok (.cons ha values) state
  | case3 s a t run less other ih =>
      intro s' start there
      have both := round s s' start there
      rw [run] at both
      obtain ⟨a', t', run', ha, state⟩ := both.found_left
      have less' := (progress s s' a a' t t' run run' start state).1 less
      have rest := ih t' state (kept s a t run there)
      rw [loopFrom_apply p' inp' s', run']
      simp only [if_pos less']
      generalize loopFrom p inp t = outcome at rest other
      generalize loopFrom p' inp' t' = outcome' at rest
      cases rest with
      | ok => exact absurd rfl (other _ _)
      | error failure state => exact .error failure state
      | defect d state => exact .defect d state
  | case4 s a t run stuck =>
      intro s' start there
      have both := round s s' start there
      rw [run] at both
      obtain ⟨a', t', run', ha, state⟩ := both.found_left
      have stuck' := mt (progress s s' a a' t t' run run' start state).2 stuck
      rw [loopFrom_apply p' inp' s', run']
      simp only [if_neg stuck']
      exact .ok (.cons ha .nil) state
  | case5 s e t run =>
      intro s' start there
      have both := round s s' start there
      rw [run] at both
      rw [loopFrom_apply p' inp' s']
      generalize p' inp' s' = run' at both
      cases both with
      | error failure state => exact .error failure state
  | case6 s d t run =>
      intro s' start there
      have both := round s s' start there
      rw [run] at both
      rw [loopFrom_apply p' inp' s']
      generalize p' inp' s' = run' at both
      cases both with
      | defect _ state => exact .defect d state

/-- A relation of states that the primitives keep, and one of failures
that merging keeps. -/
structure Simulation (exact : Prop) (inp inp' : Input) where
  rel : State → State → Prop
  blame : Failure → Failure → Prop
  language : inp.language = inp'.language
  token {s s' : State} : rel s s' → ∀ k,
    Agree exact Token.lexeme
      (inp.tokenAt (s.cursor + k)) (inp'.tokenAt (s'.cursor + k))
  lastStop {s s' : State} : rel s s' → exact →
    (inp.tokenAt (s.cursor - 1)).span.stop
      = (inp'.tokenAt (s'.cursor - 1)).span.stop
  implicits {s s' : State} : rel s s' →
    s.registry.implicitsOf? = s'.registry.implicitsOf?
  past {s s' : State} : rel s s' → rel (past inp s) (past inp' s')
  failure {s s' : State} : rel s s' → ∀ complaint expected,
    blame (failureAt inp s complaint expected)
      (failureAt inp' s' complaint expected)
  record {s s' : State} {e e' : Failure} : rel s s' → blame e e' →
    rel (s.record e) (s'.record e')
  merge {e e' f f' : Failure} : blame e e' → blame f f' →
    blame (e.merge f) (e'.merge f')
  declareFixities {s s' : State} : rel s s' → ∀ entries,
    rel (declareFixities entries inp s).state
      (declareFixities entries inp' s').state
  define {s s' : State} : rel s s' → ∀ name names,
    rel (define name names inp s).state (define name names inp' s').state
  rewind {s s' t t' : State} : rel s s' → rel t t' →
    t.Follows s → t'.Follows s' → rel (rewind s t) (rewind s' t')
  progress {s s' t t' : State} : rel s s' → rel t t' →
    t.Follows s → t'.Follows s' →
    (inp.remaining t < inp.remaining s
      ↔ inp'.remaining t' < inp'.remaining s')

/-- A relation of states at one token of one input that the primitives
keep. Runs from states in relation differ in nothing else. -/
structure Congruence (inp : Input) where
  rel : State → State → Prop
  cursor {s s' : State} : rel s s' → s.cursor = s'.cursor
  implicits {s s' : State} : rel s s' →
    s.registry.implicitsOf? = s'.registry.implicitsOf?
  past {s s' : State} : rel s s' → rel (past inp s) (past inp s')
  record {s s' : State} : rel s s' → ∀ e,
    rel (s.record e) (s'.record e)
  declareFixities {s s' : State} : rel s s' → ∀ entries,
    rel (declareFixities entries inp s).state
      (declareFixities entries inp s').state
  define {s s' : State} : rel s s' → ∀ name names,
    rel (define name names inp s).state (define name names inp s').state
  rewind {s s' t t' : State} : rel s s' → rel t t' →
    t.Follows s → t'.Follows s' → rel (rewind s t) (rewind s' t')

/-- The same tokens are read in the same places, spans and all. -/
def Congruence.simulation {inp : Input} (c : Congruence inp) :
    Simulation True inp inp where
  rel := c.rel
  blame := Eq
  language := rfl
  token := fun h k => by
    rw [c.cursor h]
    exact .refl _
  lastStop := fun h _ => by rw [c.cursor h]
  implicits := c.implicits
  past := c.past
  failure := fun h _ _ => by rw [failureAt, failureAt, c.cursor h]
  record := by
    rintro s s' e _ h rfl
    exact c.record h e
  merge := fun h h' => by rw [h, h']
  declareFixities := c.declareFixities
  define := c.define
  rewind := c.rewind
  progress := fun h h' _ _ => by
    rw [Input.remaining, Input.remaining, Input.remaining, Input.remaining,
      c.cursor h, c.cursor h']

namespace Simulation

variable {α : Type} {exact : Prop} {inp inp' : Input}
  (σ : Simulation exact inp inp')

/-- Outcomes that the simulation relates. -/
abbrev Matches (R : Likeness α) : Outcome α → Outcome α → Prop :=
  Outcome.Matches R σ.blame σ.rel

/-- Whether less of the input is left than `n`, as it must be once a
token has been read, or no more. -/
def Room (inp : Input) (n : Nat) (b : Bool) (s : State) : Prop :=
  inp.remaining s ≤ n ∧ (b = true → inp.remaining s < n)

/-- Parsers whose runs from related states match, if there is room. -/
def Simulates (n : Nat) (b : Bool) (R : Likeness α)
    (p p' : Parser α) : Prop :=
  ∀ s s', σ.rel s s' → Room inp n b s → σ.Matches R (p inp s) (p' inp' s')

variable {σ} {n : Nat} {b : Bool} {R : Likeness α}

theorem Room.follows {s t : State} (h : Room inp n b s)
    (later : t.Follows s) : Room inp n b t := by
  have less := later.remaining_le inp
  exact ⟨Nat.le_trans less h.1, fun read => Nat.lt_of_le_of_lt less (h.2 read)⟩

-- ===================================================== combinators

theorem Simulates.attempt {p p' : Parser α} (hp : Steady p)
    (hp' : Steady p') (h : σ.Simulates n b R p p') :
    σ.Simulates n b R (attempt p) (attempt p') := by
  intro s s' start room
  have body := h s s' start room
  have followed := hp inp s
  have followed' := hp' inp' s'
  unfold Parser.attempt
  generalize p inp s = run at body followed
  generalize p' inp' s' = run' at body followed'
  cases body with
  | ok value state => exact .ok value state
  | error failure state =>
      exact .error failure (σ.rewind start state followed followed')
  | defect d state => exact .defect d state

theorem Simulates.attemptElse {p p' : Parser α} (hp : Steady p)
    (hp' : Steady p') (h : σ.Simulates n b R p p')
    {k k' : Failure → Parser α}
    (otherwise : ∀ e e', σ.blame e e' → σ.Simulates n b R (k e) (k' e')) :
    σ.Simulates n b R (attemptElse p k) (attemptElse p' k') := by
  intro s s' start room
  have first := h.attempt hp hp' s s' start room
  have followed := hp.attempt inp s
  unfold Parser.attemptElse
  generalize Parser.attempt p inp s = run at first followed
  generalize Parser.attempt p' inp' s' = run' at first
  cases first with
  | ok value state => exact .ok value state
  | error failure state =>
      exact otherwise _ _ failure _ _ state (room.follows followed)
  | defect d state => exact .defect d state

theorem simulates_choiceAfter {ps ps' : List (Parser α)}
    (length : ps.length = ps'.length)
    (steady : ∀ q ∈ ps.zip ps', Steady q.1 ∧ Steady q.2)
    (h : ∀ q ∈ ps.zip ps', σ.Simulates n b R q.1 q.2) :
    ∀ failed failed', σ.blame failed failed' →
      σ.Simulates n b R (choiceAfter failed ps) (choiceAfter failed' ps') := by
  induction ps generalizing ps' with
  | nil =>
      intro failed failed' blamed s s' start room
      cases ps' with
      | nil => exact .error blamed start
      | cons => cases length
  | cons p ps ih =>
      intro failed failed' blamed
      cases ps' with
      | nil => cases length
      | cons p' ps' =>
          obtain ⟨hp, hp'⟩ := steady (p, p') List.mem_cons_self
          have rest := ih (Nat.succ.inj length)
            (fun q hq => steady q (List.mem_cons_of_mem _ hq))
            (fun q hq => h q (List.mem_cons_of_mem _ hq))
          rw [choiceAfter_cons, choiceAfter_cons]
          exact (h (p, p') List.mem_cons_self).attemptElse hp hp'
            fun e e' failure => rest _ _ (σ.merge blamed failure)

theorem simulates_choice {ps ps' : List (Parser α)}
    (length : ps.length = ps'.length)
    (steady : ∀ q ∈ ps.zip ps', Steady q.1 ∧ Steady q.2)
    (h : ∀ q ∈ ps.zip ps', σ.Simulates n b R q.1 q.2) :
    σ.Simulates n b R (choice ps) (choice ps') := by
  cases ps with
  | nil =>
      cases ps' with
      | nil => exact fun _ _ start _ => .defect .emptyChoice start
      | cons => cases length
  | cons p ps =>
      cases ps' with
      | nil => cases length
      | cons p' ps' =>
          obtain ⟨hp, hp'⟩ := steady (p, p') List.mem_cons_self
          have rest := simulates_choiceAfter (Nat.succ.inj length)
            (fun q hq => steady q (List.mem_cons_of_mem _ hq))
            (fun q hq => h q (List.mem_cons_of_mem _ hq))
          rw [choice_cons, choice_cons]
          exact (h (p, p') List.mem_cons_self).attemptElse hp hp' rest

theorem Simulates.optional {p p' : Parser α} {a a' : α} (hp : Steady p)
    (hp' : Steady p') (h : σ.Simulates n b R p p') (value : R a a') :
    σ.Simulates n b R (optional p a) (optional p' a') := by
  rw [optional_eq, optional_eq]
  exact h.attemptElse hp hp' fun _ _ _ _ _ start _ => .ok value start

theorem Simulates.loop {p p' : Parser (Option α)} (hp : Steady p)
    (hp' : Steady p') (h : σ.Simulates n b R.option p p') :
    σ.Simulates n b R.list (loop p) (loop p') := by
  refine loop_matches (Room inp n b) h (fun s a t run room => ?_) ?_
  · have later := hp inp s
    rw [run] at later
    exact room.follows later
  · intro s s' a a' t t' run run' start state
    have later := hp inp s
    have later' := hp' inp' s'
    rw [run] at later
    rw [run'] at later'
    exact σ.progress start state later later'

-- ====================================================== primitives

theorem simulates_failWith (complaint : Option Complaint)
    (expected : List String) :
    σ.Simulates n b R (failWith complaint expected)
      (failWith complaint expected) := by
  intro s s' start _
  have blamed := σ.failure start complaint expected
  exact .error blamed (σ.record start blamed)

theorem simulates_accept {read : Language → Token → Option α}
    {expected : String}
    (value : ∀ lang t t', Agree exact Token.lexeme t t' →
      Option.Rel R (read lang t) (read lang t')) :
    σ.Simulates n b R (accept read expected) (accept read expected) := by
  intro s s' start room
  have found := value inp.language _ _ (σ.token start 0)
  unfold accept
  rw [← σ.language]
  simp only [Nat.add_zero] at found
  generalize read inp.language (inp.tokenAt s.cursor) = found₁ at found
  generalize read inp.language (inp'.tokenAt s'.cursor) = found₂ at found
  cases found with
  | some ha => exact .ok ha (σ.past start)
  | none => exact simulates_failWith none [expected] s s' start room

end Simulation

-- ===================================================== all parsers

/-- Parsers that are built alike run alike from related states, as far
as nested expressions do. -/
theorem Alike.simulates {α : Type} {exact : Prop} {inp inp' : Input}
    {σ : Simulation exact inp inp'} {n : Nat} {e e' : Parser Term}
    {b c : Bool} {R : Likeness α} {p p' : Parser α} (he : Steady e)
    (he' : Steady e')
    (nested : σ.Simulates n true (Term.likeness exact) e e')
    (h : Alike exact e e' b c R p p') : σ.Simulates n b R p p' := by
  induction h with
  | pure value => exact fun _ _ start _ => .ok value start
  | @bind _ _ b c _ R _ p p' f f' first _ ih next =>
      intro s s' start room
      have begun := ih s s' start room
      have later := (first.steady he he').1 inp s
      rw [bind_apply, bind_apply]
      cases run : p inp s with
      | ok a t =>
          rw [run] at begun later
          obtain ⟨a', t', run', value, state⟩ := begun.ok_left
          rw [run']
          refine next _ _ value _ _ state ⟨(room.follows later).1, ?_⟩
          intro read
          cases b with
          | true => exact (room.follows later).2 rfl
          | false =>
              exact Nat.lt_of_lt_of_le
                (first.remaining_lt he he' run read rfl) room.1
      | error e t =>
          rw [run] at begun
          generalize p' inp' s' = run' at begun
          cases begun with
          | error failure state => exact .error failure state
      | defect d t =>
          rw [run] at begun
          generalize p' inp' s' = run' at begun
          cases begun with
          | defect _ state => exact .defect d state
  | @weaken _ _ _ _ _ _ _ p p' _ before _ value ih =>
      intro s s' start room
      have ran := ih s s' start ⟨room.1, fun read => room.2 (before read)⟩
      exact ran.weaken value
  | nested => exact nested
  | broken d => exact fun _ _ start _ => .defect d start
  | peek offset => exact fun _ _ start _ => .ok (σ.token start offset) start
  | lastStop =>
      exact fun _ _ start _ => .ok ⟨rfl, σ.lastStop start⟩ start
  | consult _ _ value =>
      exact fun _ _ start _ => .ok (value _ _ (σ.implicits start)) start
  | advance =>
      exact fun _ _ start _ => .ok (σ.token start 0) (σ.past start)
  | accept value => exact Simulation.simulates_accept value
  | failWith complaint expected =>
      exact Simulation.simulates_failWith complaint expected
  | declareFixities entries =>
      exact fun _ _ start _ => .ok rfl (σ.declareFixities start entries)
  | define name names =>
      exact fun _ _ start _ => .ok rfl (σ.define start name names)
  | attempt body ih =>
      have steady := body.steady he he'
      exact ih.attempt steady.1 steady.2
  | choice length each ih =>
      exact Simulation.simulates_choice length
        (fun q hq => (each q hq).steady he he') ih
  | optional body value ih =>
      have steady := body.steady he he'
      exact ih.optional steady.1 steady.2 value
  | loop body ih =>
      have steady := body.steady he he'
      exact ih.loop steady.1 steady.2

end Parser

end DepLang
