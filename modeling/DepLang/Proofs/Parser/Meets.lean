/-
The failures that a run meets. They are told by how the parser is put
together, not by what it keeps: a failure is met where a token is
refused or a rule fails at the cursor, and whatever goes on from there,
an attempt that goes back, an option that does without, a repetition
that ends, a choice that tries its next alternative, has still met it
(`Meets`).

What a parser keeps is another matter, the furthest failure alone, and
the two are tied together here. The furthest failure after a run is what
the failures met come to when they are recorded one by one
(`Meets.furthest`); a run that fails, fails with failures that were met,
merged as the choices on the way merge them (`Meets.merged`); and all of
them were met at tokens from the start of the run on (`Meets.placed`).
Each is one induction over the run.
-/
import DepLang.Proofs.Diagnostic.Merge
import DepLang.Proofs.Parser.Follows

namespace DepLang.Parser

/-- From the state, a run of the parser meets the failures, in this
order. -/
inductive Meets (inp : Input) :
    {α : Type} → Parser α → State → List Failure → Prop
  | ask {α : Type} (f : Input → State → α) (s : State) :
      Meets inp (ask f) s []
  | advance (s : State) : Meets inp advance s []
  | broken {α : Type} (d : Defect) (s : State) :
      Meets inp (broken d : Parser α) s []
  | declareFixities (entries : List FixityEntry) (s : State) :
      Meets inp (declareFixities entries) s []
  | define (name : Name) (names : List Name) (s : State) :
      Meets inp (define name names) s []
  | accepted {α : Type} {read : Language → Token → Option α}
      {expected : String} {s : State} {a : α}
      (found : read inp.language (inp.tokenAt s.cursor) = some a) :
      Meets inp (accept read expected) s []
  | refused {α : Type} {read : Language → Token → Option α}
      {expected : String} {s : State}
      (refuses : read inp.language (inp.tokenAt s.cursor) = none) :
      Meets inp (accept read expected) s [failureAt inp s none [expected]]
  | failWith {α : Type} (complaint : Option Complaint)
      (expected : List String) (s : State) :
      Meets inp (failWith complaint expected : Parser α) s
        [failureAt inp s complaint expected]
  /-- What stops a sequence is all there is to it. -/
  | stop {α β : Type} {p : Parser α} {f : α → Parser β} {s : State}
      {met : List Failure} (first : Meets inp p s met)
      (stops : ∀ a t, p inp s ≠ .ok a t) : Meets inp (p >>= f) s met
  | bind {α β : Type} {p : Parser α} {f : α → Parser β} {s t : State}
      {a : α} {met more : List Failure} (first : Meets inp p s met)
      (run : p inp s = .ok a t) (next : Meets inp (f a) t more) :
      Meets inp (p >>= f) s (met ++ more)
  | attempt {α : Type} {p : Parser α} {s : State} {met : List Failure}
      (body : Meets inp p s met) : Meets inp (attempt p) s met
  | optional {α : Type} {p : Parser α} {s : State} {met : List Failure}
      (body : Meets inp p s met) (a : α) : Meets inp (optional p a) s met
  | untried {α : Type} (s : State) :
      Meets inp (choice ([] : List (Parser α))) s []
  /-- An alternative that does not fail ends a choice. -/
  | chosen {α : Type} {p : Parser α} {ps : List (Parser α)} {s : State}
      {met : List Failure} (first : Meets inp p s met)
      (chosen : ∀ e t, p inp s ≠ .error e t) :
      Meets inp (choice (p :: ps)) s met
  /-- One that fails is taken back, and the others are tried. -/
  | other {α : Type} {p : Parser α} {ps : List (Parser α)} {s t : State}
      {e : Failure} {met more : List Failure} (first : Meets inp p s met)
      (run : p inp s = .error e t)
      (rest : Meets inp (choice ps) (rewind s t) more) :
      Meets inp (choice (p :: ps)) s (met ++ more)
  /-- A round that finds nothing, or takes no token, is the last. -/
  | last {α : Type} {p : Parser (Option α)} {s : State}
      {met : List Failure} (round : Meets inp p s met)
      (ends : ∀ a t, p inp s = .ok (some a) t →
        ¬inp.remaining t < inp.remaining s) : Meets inp (loop p) s met
  | round {α : Type} {p : Parser (Option α)} {s t : State} {a : α}
      {met more : List Failure} (first : Meets inp p s met)
      (run : p inp s = .ok (some a) t)
      (less : inp.remaining t < inp.remaining s)
      (rest : Meets inp (loop p) t more) :
      Meets inp (loop p) s (met ++ more)

variable {α β : Type} {inp : Input} {s t : State}

-- ======================================================== alternatives

/-- The outcome with its failure changed. -/
def mapFailure (g : Failure → Failure) : Outcome α → Outcome α
  | .error e t => .error (g e) t
  | outcome => outcome

theorem state_mapFailure (g : Failure → Failure) (run : Outcome α) :
    (mapFailure g run).state = run.state := by
  cases run <;> rfl

/-- What failed before the alternatives only goes in front of what they
fail with. -/
theorem choiceAfter_merge (f : Failure) (ps : List (Parser α)) :
    ∀ e s, choiceAfter (f.merge e) ps inp s
      = mapFailure f.merge (choiceAfter e ps inp s) := by
  induction ps with
  | nil => exact fun _ _ => rfl
  | cons p ps ih =>
      intro e s
      rw [choiceAfter_cons, choiceAfter_cons]
      unfold attemptElse
      cases attempt p inp s with
      | ok | defect => rfl
      | error e' t =>
          simp only [Failure.merge_assoc]
          exact ih (e.merge e') t

/-- After a failure, alternatives do what they do as a choice of their
own, with that failure in front of theirs. -/
theorem choiceAfter_eq (e : Failure) {ps : List (Parser α)}
    (some : ps ≠ []) (s : State) :
    choiceAfter e ps inp s = mapFailure e.merge (choice ps inp s) := by
  obtain ⟨p, ps, rfl⟩ := List.exists_cons_of_ne_nil some
  rw [choiceAfter_cons, choice_cons]
  unfold attemptElse
  cases attempt p inp s with
  | ok | defect => rfl
  | error e' t => exact choiceAfter_merge e ps e' t

theorem state_choiceAfter (e : Failure) (ps : List (Parser α))
    (s : State) :
    (choiceAfter e ps inp s).state = (choice ps inp s).state := by
  cases ps with
  | nil => rfl
  | cons p ps =>
      rw [choiceAfter_eq e (List.cons_ne_nil p ps), state_mapFailure]

theorem choice_of_error {p : Parser α} {e : Failure}
    (run : p inp s = .error e t) (ps : List (Parser α)) :
    choice (p :: ps) inp s = choiceAfter e ps inp (rewind s t) := by
  rw [choice_cons]
  unfold attemptElse attempt
  rw [run]

theorem choice_of_not_error {p : Parser α}
    (chosen : ∀ e t, p inp s ≠ .error e t) (ps : List (Parser α)) :
    choice (p :: ps) inp s = p inp s := by
  rw [choice_cons]
  unfold attemptElse attempt
  cases run : p inp s with
  | ok | defect => rfl
  | error e t => exact absurd run (chosen e t)

-- ========================================================= accounting

/-- A run from the state that accounts for the failures met: they were
met at tokens that it did not start behind, the furthest one is kept,
and what it fails with is merged from them. -/
structure Accounts (inp : Input) (s : State) (met : List Failure)
    (run : Outcome α) : Prop where
  onward : s.cursor ≤ run.state.cursor
  furthest : run.state.furthest = Failure.furthest s.furthest met
  merged : ∀ e t, run = .error e t → e.MergedFrom met
  placed : ∀ f ∈ met, ∃ i, s.cursor ≤ i ∧ f.span = (inp.tokenAt i).span

namespace Accounts

variable {met more : List Failure} {run : Outcome α} {run' : Outcome β}

/-- A run that meets nothing and finds something. -/
theorem of_ok {a : α} (onward : s.cursor ≤ t.cursor)
    (furthest : t.furthest = s.furthest) :
    Accounts inp s [] (.ok a t) where
  onward := onward
  furthest := furthest
  merged e u ended := by cases ended
  placed f member := by cases member

theorem of_defect (d : Defect) (s : State) :
    Accounts inp s [] (.defect d s : Outcome α) where
  onward := Nat.le_refl _
  furthest := rfl
  merged e u ended := by cases ended
  placed f member := by cases member

/-- Where a failure begins, it is recorded. -/
theorem of_failWith (complaint : Option Complaint)
    (expected : List String) (s : State) :
    Accounts inp s [failureAt inp s complaint expected]
      (failWith complaint expected inp s : Outcome α) where
  onward := Nat.le_refl _
  furthest := rfl
  merged e u ended := by
    cases ended
    exact .one (List.mem_singleton.2 rfl)
  placed f member := by
    rw [List.mem_singleton.1 member]
    exact ⟨s.cursor, Nat.le_refl _, rfl⟩

/-- A run that ends as the other does, with what that has kept. -/
theorem ends (h : Accounts inp s met run)
    (onward : s.cursor ≤ run'.state.cursor)
    (kept : run'.state.furthest = run.state.furthest)
    (errors : ∀ e t, run' = .error e t → ∃ u, run = .error e u) :
    Accounts inp s met run' where
  onward := onward
  furthest := kept.trans h.furthest
  merged e t ended := by
    obtain ⟨u, failed⟩ := errors e t ended
    exact h.merged e u failed
  placed := h.placed

/-- A run that goes on from where another one ended. -/
theorem append (h : Accounts inp s met run) (onward : s.cursor ≤ t.cursor)
    (kept : t.furthest = run.state.furthest)
    (h' : Accounts inp t more run') :
    Accounts inp s (met ++ more) run' where
  onward := Nat.le_trans onward h'.onward
  furthest := by
    rw [h'.furthest, kept, h.furthest, Failure.furthest_append]
  merged e u ended :=
    (h'.merged e u ended).mono (List.subset_append_right met more)
  placed f member := by
    rcases List.mem_append.1 member with member | member
    · exact h.placed f member
    · obtain ⟨i, le, there⟩ := h'.placed f member
      exact ⟨i, Nat.le_trans onward le, there⟩

end Accounts

theorem furthest_past (inp : Input) (s : State) :
    (past inp s).furthest = s.furthest := by
  unfold past
  split <;> rfl

section
variable {met more : List Failure}

theorem accounts_past (a : α) (s : State) :
    Accounts inp s [] (.ok a (past inp s)) :=
  .of_ok (follows_past inp s).cursor_le (furthest_past inp s)

/-- An attempt keeps the record of what it takes back. -/
theorem Accounts.attempt {p : Parser α}
    (body : Accounts inp s met (p inp s)) :
    Accounts inp s met (attempt p inp s) := by
  unfold Parser.attempt
  cases run : p inp s with
  | ok | defect =>
      rw [run] at body
      exact body
  | error e t =>
      rw [run] at body
      refine body.ends (Nat.le_refl _) rfl fun e' u ended => ?_
      cases ended
      exact ⟨t, rfl⟩

/-- A choice that goes on has met what its first alternative failed
with, and merges it with what the others fail with. -/
theorem Accounts.other {p : Parser α} {ps : List (Parser α)} {e : Failure}
    (first : Accounts inp s met (p inp s)) (run : p inp s = .error e t)
    (rest : Accounts inp (rewind s t) more (choice ps inp (rewind s t))) :
    Accounts inp s (met ++ more) (choice (p :: ps) inp s) := by
  have kept : (rewind s t).furthest = (p inp s).state.furthest := by
    rw [run]
    rfl
  have both := first.append (t := rewind s t) (Nat.le_refl s.cursor) kept rest
  have before : e.MergedFrom (met ++ more) :=
    (first.merged e t run).mono (List.subset_append_left met more)
  rw [choice_of_error run ps]
  refine ⟨?_, ?_, fun e' u ended => ?_, both.placed⟩
  · rw [state_choiceAfter]
    exact both.onward
  · rw [state_choiceAfter]
    exact both.furthest
  · cases ps with
    | nil =>
        cases ended
        exact before
    | cons q ps =>
        rw [choiceAfter_eq e (List.cons_ne_nil q ps)] at ended
        generalize choice (q :: ps) inp (rewind s t) = others at both ended
        cases others with
        | ok | defect => cases ended
        | error e'' u' =>
            cases ended
            exact before.merge (both.merged e'' _ rfl)

/-- The last round of a loop is what the loop comes to. -/
theorem Accounts.last {p : Parser (Option α)}
    (round : Accounts inp s met (p inp s))
    (ends : ∀ a t, p inp s = .ok (some a) t →
      ¬inp.remaining t < inp.remaining s) :
    Accounts inp s met (loop p inp s) := by
  rw [loop_apply]
  cases run : p inp s with
  | error e t =>
      rw [run] at round
      refine round.ends round.onward rfl fun e' u ended => ?_
      cases ended
      exact ⟨t, rfl⟩
  | defect d t =>
      rw [run] at round
      exact round.ends round.onward rfl fun e u ended => by cases ended
  | ok found t =>
      rw [run] at round
      cases found with
      | none =>
          exact round.ends round.onward rfl fun e u ended => by cases ended
      | some a =>
          simp only [if_neg (ends a t run)]
          exact round.ends round.onward rfl fun e u ended => by cases ended

/-- A loop goes on with the rest of its rounds. -/
theorem Accounts.round {p : Parser (Option α)} {a : α}
    (first : Accounts inp s met (p inp s)) (run : p inp s = .ok (some a) t)
    (less : inp.remaining t < inp.remaining s)
    (rest : Accounts inp t more (loop p inp t)) :
    Accounts inp s (met ++ more) (loop p inp s) := by
  rw [loop_apply, run]
  simp only [if_pos less, map_apply]
  rw [run] at first
  refine first.append first.onward rfl ?_
  generalize loop p inp t = rounds at rest
  cases rounds with
  | ok as u | defect d u =>
      exact rest.ends rest.onward rfl fun e v ended => by cases ended
  | error e u =>
      refine rest.ends rest.onward rfl fun e' v ended => ?_
      cases ended
      exact ⟨u, rfl⟩

end

/-- Every run accounts for the failures that it meets. -/
theorem Meets.accounts {p : Parser α} {met : List Failure}
    (h : Meets inp p s met) : Accounts inp s met (p inp s) := by
  induction h with
  | ask => exact .of_ok (Nat.le_refl _) rfl
  | declareFixities => exact .of_ok (Nat.le_refl _) rfl
  | define => exact .of_ok (Nat.le_refl _) rfl
  | advance s => exact accounts_past _ s
  | broken d s => exact .of_defect d s
  | accepted found =>
      unfold accept
      rw [found]
      exact accounts_past _ _
  | refused refuses =>
      unfold accept
      rw [refuses]
      exact .of_failWith none _ _
  | failWith complaint expected s => exact .of_failWith complaint expected s
  | @stop _ _ p f s met first stops ih =>
      rw [bind_apply]
      cases run : p inp s with
      | ok a t => exact absurd run (stops a t)
      | error e t =>
          rw [run] at ih
          refine ih.ends ih.onward rfl fun e' u ended => ?_
          cases ended
          exact ⟨t, rfl⟩
      | defect d t =>
          rw [run] at ih
          exact ih.ends ih.onward rfl fun e u ended => by cases ended
  | bind first run next ih ih' =>
      rw [bind_apply, run]
      rw [run] at ih
      exact ih.append ih.onward rfl ih'
  | attempt body ih => exact ih.attempt
  | @optional _ p s met body a ih =>
      have tried := ih.attempt
      unfold Parser.optional
      cases run : Parser.attempt p inp s with
      | ok | defect =>
          rw [run] at tried
          exact tried
      | error e t =>
          rw [run] at tried
          exact tried.ends tried.onward rfl fun e' u ended => by cases ended
  | untried s => exact .of_defect .emptyChoice s
  | @chosen _ p ps s met first chosen ih =>
      rw [choice_of_not_error chosen ps]
      exact ih
  | other first run rest ih ih' => exact ih.other run ih'
  | last round ends ih => exact ih.last ends
  | round first run less rest ih ih' => exact ih.round run less ih'

end DepLang.Parser
