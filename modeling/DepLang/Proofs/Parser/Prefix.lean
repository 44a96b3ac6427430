/-
Two inputs that agree up to a token. As long as a run over the first
does not read that token, it never sees what comes after it, and a run
over the second from the same cursor and registry does the same: it
finds the same, or fails with the same words at the same place.

A run that does read the token has escaped, and of such a run nothing
is said about the other input. But it cannot fail any more at the token
or before it: what it fails with is blamed on a token that was not yet
read, and the furthest failure lies there or behind
(`Accountable.escapes`). Going back does not help it, since the furthest
failure is kept. So if that one does not lie behind the token, and the
run failed, then no alternative has ever read the token, and the two
runs are the same (`Inside.confined`).
-/
import DepLang.Proofs.Parser.Blame
import DepLang.Proofs.Parser.Simulation

namespace DepLang

-- ========================================================= failures

/-- Failures that say the same of the same place. They may come from
different files. -/
structure Failure.Echoes (e e' : Failure) : Prop where
  complaint : e.complaint = e'.complaint
  span : e.span = e'.span
  expected : e.expected = e'.expected

theorem Failure.Echoes.merge {e e' f f' : Failure} (he : e.Echoes e')
    (hf : f.Echoes f') : (e.merge f).Echoes (e'.merge f') := by
  rcases Nat.lt_trichotomy e.span.start f.span.start with lt | eq | gt
  · have lt' := lt
    rw [he.span, hf.span] at lt'
    rw [merge_of_lt lt, merge_of_lt lt']
    exact hf
  · have eq' := eq
    rw [he.span, hf.span] at eq'
    rw [merge_of_eq eq, merge_of_eq eq']
    refine ⟨he.complaint, he.span, ?_⟩
    simp only [he.expected, hf.expected]
  · have gt' := gt
    rw [he.span, hf.span] at gt'
    rw [merge_of_gt gt, merge_of_gt gt']
    exact he

-- =========================================================== inputs

/-- Where the token at an index starts. -/
abbrev Input.startAt (inp : Input) (i : Nat) : Nat :=
  (inp.tokenAt i).span.start

/-- Two inputs with the same tokens up to the one at `p` and with it. In
the first all others start behind it. -/
structure Input.Shares (inp inp' : Input) (p : Nat) : Prop where
  language : inp.language = inp'.language
  token : ∀ i ≤ p, inp.tokenAt i = inp'.tokenAt i
  le_size : p ≤ inp.tokens.size
  le_size' : p ≤ inp'.tokens.size
  ordered : (inp.tokenAt p).kind ≠ .eof →
    ∀ i, p < i → inp.startAt p < inp.startAt i

-- =========================================================== states

/-- States at one cursor, not past the token at `p`, with one registry
and with furthest failures that say the same. -/
structure State.Alongside (p : Nat) (s s' : State) : Prop where
  cursor : s.cursor = s'.cursor
  le : s.cursor ≤ p
  registry : s.registry = s'.registry
  furthest : Option.Rel Failure.Echoes s.furthest s'.furthest

/-- Has a failure been met that lies behind the token at `p`? -/
def State.FailedBehind (inp : Input) (p : Nat) (s : State) : Prop :=
  ∃ f ∈ s.furthest, inp.startAt p < f.span.start

/-- A state from which no run fails at the token at `p`, or before it,
without a failure met behind it. -/
def State.Escaped (inp : Input) (p : Nat) (s : State) : Prop :=
  (∀ i, s.cursor ≤ i → inp.startAt p < inp.startAt i)
    ∨ s.FailedBehind inp p

/-- A run that ends in such a state, and if it fails, with such a
failure. -/
def Outcome.Escapes {α : Type} (inp : Input) (p : Nat) :
    Outcome α → Prop
  | .ok _ t => t.Escaped inp p
  | .error _ t => t.FailedBehind inp p
  | .defect _ _ => True

namespace Parser

variable {α β : Type} {inp inp' : Input} {p : Nat}

/-- Outcomes that come to the same, alongside one another. -/
abbrev EndsAlongside (p : Nat) : Outcome α → Outcome α → Prop :=
  Outcome.Matches .same Failure.Echoes (State.Alongside p)

/-- Parsers that run alike, one over each input, as long as the first
does not escape. -/
def Confined (inp inp' : Input) (p : Nat) (q q' : Parser α) : Prop :=
  ∀ s s', s.Alongside p s' →
    EndsAlongside p (q inp s) (q' inp' s') ∨ (q inp s).Escapes inp p

-- ========================================================= escaping

section
variable {q : Parser α} {s : State}

/-- What failed behind the token is not lost. -/
theorem escapes_of_failedBehind (keeps : Keeps inp q)
    (start : s.FailedBehind inp p) : (q inp s).Escapes inp p := by
  obtain ⟨f, member, behind⟩ := start
  obtain ⟨m, found, le⟩ := keeps s f member
  have failed : (q inp s).state.FailedBehind inp p :=
    ⟨m, found, Nat.lt_of_lt_of_le behind le⟩
  cases run : q inp s with
  | ok a t =>
      rw [run] at failed
      exact .inr failed
  | error e t =>
      rw [run] at failed
      exact failed
  | defect d t => trivial

/-- Nothing that comes after an escape takes it back. -/
theorem Accountable.escapes (h : Accountable inp q)
    (start : s.Escaped inp p) : (q inp s).Escapes inp p := by
  rcases start with ahead | failed
  · have later := h.onward s
    cases run : q inp s with
    | ok a t =>
        rw [run] at later
        exact .inl fun i le => ahead i (Nat.le_trans later le)
    | error e t =>
        obtain ⟨⟨i, le, there⟩, m, found, further⟩ := h.blames run
        refine ⟨m, found, Nat.lt_of_lt_of_le ?_ further⟩
        rw [there]
        exact ahead i le
    | defect d t => trivial
  · exact escapes_of_failedBehind h.keeps failed

/-- A loop escapes as soon as its first round does. -/
theorem Accountable.loop_escapes {q : Parser (Option α)}
    (h : Accountable inp q) (first : (q inp s).Escapes inp p) :
    (Parser.loop q inp s).Escapes inp p := by
  show (loopFrom q inp s).Escapes inp p
  rw [loopFrom_apply]
  cases run : q inp s with
  | error e t =>
      rw [run] at first
      exact first
  | defect d t => trivial
  | ok found t =>
      rw [run] at first
      cases found with
      | none => exact first
      | some a =>
          simp only
          split
          · have rest : (loopFrom q inp t).Escapes inp p :=
              h.loop.escapes first
            generalize loopFrom q inp t = run' at rest
            cases run' <;> exact rest
          · exact first

end

-- ===================================================== combinators

theorem Confined.bind {q q' : Parser α} {f f' : α → Parser β}
    (first : Confined inp inp' p q q')
    (account : ∀ a, Accountable inp (f a))
    (next : ∀ a, Confined inp inp' p (f a) (f' a)) :
    Confined inp inp' p (q >>= f) (q' >>= f') := by
  intro s s' start
  rw [bind_apply, bind_apply]
  rcases first s s' start with along | escapes
  · generalize q inp s = run at along
    generalize q' inp' s' = run' at along
    cases along with
    | @ok a _ t t' value state =>
        cases value
        exact next a t t' state
    | error failure state => exact .inl (.error failure state)
    | defect d state => exact .inl (.defect d state)
  · right
    generalize q inp s = run at escapes
    cases run with
    | ok a t => exact (account a).escapes escapes
    | error e t => exact escapes
    | defect d t => trivial

theorem Confined.attempt {q q' : Parser α}
    (h : Confined inp inp' p q q') :
    Confined inp inp' p (attempt q) (attempt q') := by
  intro s s' start
  unfold Parser.attempt
  rcases h s s' start with along | escapes
  · left
    generalize q inp s = run at along
    generalize q' inp' s' = run' at along
    cases along with
    | ok value state => exact .ok value state
    | @error e e' t t' failure state =>
        refine .error failure ⟨start.cursor, start.le, ?_, state.furthest⟩
        show t.registry.restore s.registry.snapshot
          = t'.registry.restore s'.registry.snapshot
        rw [state.registry, start.registry]
    | defect d state => exact .defect d state
  · right
    generalize q inp s = run at escapes
    cases run <;> exact escapes

/-- An alternative that escaped before it failed has left a failure
behind the token, which those after it keep. -/
theorem Confined.attemptElse {q q' : Parser α} {k k' : Failure → Parser α}
    (first : Confined inp inp' p q q')
    (keeps : ∀ e, Keeps inp (k e))
    (otherwise : ∀ e e', e.Echoes e' →
      Confined inp inp' p (k e) (k' e')) :
    Confined inp inp' p (attemptElse q k) (attemptElse q' k') := by
  intro s s' start
  unfold Parser.attemptElse
  rcases first.attempt s s' start with along | escapes
  · generalize Parser.attempt q inp s = run at along
    generalize Parser.attempt q' inp' s' = run' at along
    cases along with
    | ok value state => exact .inl (.ok value state)
    | error failure state => exact otherwise _ _ failure _ _ state
    | defect d state => exact .inl (.defect d state)
  · right
    generalize Parser.attempt q inp s = run at escapes
    cases run with
    | ok a t => exact escapes
    | error e t => exact escapes_of_failedBehind (keeps e) escapes
    | defect d t => trivial

theorem confined_choiceAfter {qs : List (Parser α)}
    (account : ∀ q ∈ qs, Accountable inp q)
    (each : ∀ q ∈ qs, Confined inp inp' p q q) :
    ∀ failed failed', failed.Echoes failed' →
      Confined inp inp' p (choiceAfter failed qs)
        (choiceAfter failed' qs) := by
  induction qs with
  | nil => exact fun _ _ same _ _ start => .inl (.error same start)
  | cons q qs ih =>
      intro failed failed' same
      have later : ∀ r ∈ qs, Accountable inp r :=
        fun r hr => account r (List.mem_cons_of_mem q hr)
      have rest := ih later fun r hr => each r (List.mem_cons_of_mem q hr)
      rw [choiceAfter_cons, choiceAfter_cons]
      exact (each q List.mem_cons_self).attemptElse
        (fun e => keeps_choiceAfter later _)
        fun e e' failure => rest _ _ (same.merge failure)

theorem confined_choice {qs : List (Parser α)}
    (account : ∀ q ∈ qs, Accountable inp q)
    (each : ∀ q ∈ qs, Confined inp inp' p q q) :
    Confined inp inp' p (choice qs) (choice qs) := by
  cases qs with
  | nil => exact fun _ _ start => .inl (.defect .emptyChoice start)
  | cons q qs =>
      have later : ∀ r ∈ qs, Accountable inp r :=
        fun r hr => account r (List.mem_cons_of_mem q hr)
      rw [choice_cons]
      exact (each q List.mem_cons_self).attemptElse
        (keeps_choiceAfter later)
        (confined_choiceAfter later
          fun r hr => each r (List.mem_cons_of_mem q hr))

theorem Confined.optional {q : Parser α} (h : Confined inp inp' p q q)
    (a : α) : Confined inp inp' p (optional q a) (optional q a) := by
  rw [optional_eq]
  exact h.attemptElse (fun _ => (accountable_pure a).keeps)
    fun _ _ _ _ _ start => .inl (.ok rfl start)

-- ======================================================= the prefix

section
variable (shares : inp.Shares inp' p) {s s' t t' : State}
include shares

theorem alongside_token (h : s.Alongside p s') :
    inp.tokenAt s.cursor = inp'.tokenAt s'.cursor := by
  rw [shares.token _ h.le, h.cursor]

/-- Reading a token leads on alongside, or is the escape. -/
theorem alongside_past (h : s.Alongside p s') :
    (past inp s).Alongside p (past inp' s')
      ∨ (past inp s).Escaped inp p := by
  unfold past
  rw [← alongside_token shares h]
  split
  · exact .inl h
  next more =>
      rcases Nat.lt_or_eq_of_le h.le with lt | rfl
      · refine .inl ⟨?_, lt, h.registry, h.furthest⟩
        show s.cursor + 1 = s'.cursor + 1
        rw [h.cursor]
      · exact .inr (.inl (shares.ordered more))

/-- Both sides make progress, or neither does. -/
theorem alongside_progress (start : s.Alongside p s')
    (later : t.Alongside p t') :
    inp.remaining t < inp.remaining s
      ↔ inp'.remaining t' < inp'.remaining s' := by
  have := shares.le_size
  have := shares.le_size'
  have := start.le
  have := later.le
  unfold Input.remaining
  rw [← start.cursor, ← later.cursor]
  omega

theorem confined_failWith (complaint : Option Complaint)
    (expected : List String) :
    Confined inp inp' p (failWith complaint expected : Parser α)
      (failWith complaint expected) := by
  intro s s' start
  have token := alongside_token shares start
  have same : (failureAt inp s complaint expected).Echoes
      (failureAt inp' s' complaint expected) := by
    unfold failureAt
    rw [token]
    exact ⟨rfl, rfl, rfl⟩
  exact .inl (.error same ⟨start.cursor, start.le, start.registry,
    State.record_rel .merge start.furthest same⟩)

theorem confined_advance : Confined inp inp' p advance advance := by
  intro s s' start
  exact (alongside_past shares start).imp_left
    (.ok (alongside_token shares start))

theorem confined_accept {read : Language → Token → Option α}
    {expected : String} :
    Confined inp inp' p (accept read expected) (accept read expected) := by
  intro s s' start
  unfold accept
  rw [← shares.language, ← alongside_token shares start]
  split
  · exact (alongside_past shares start).imp_left (.ok rfl)
  · exact confined_failWith shares none [expected] s s' start

theorem confined_look (f : Token → α) :
    Confined inp inp' p (ask fun inp s => f (inp.tokenAt s.cursor))
      (ask fun inp s => f (inp.tokenAt s.cursor)) :=
  fun _ _ start =>
    .inl (.ok (congrArg f (alongside_token shares start)) start)

/-- Loops are followed round by round, until one of them escapes. -/
theorem Confined.loop {q : Parser (Option α)}
    (account : Accountable inp q) (h : Confined inp inp' p q q) :
    Confined inp inp' p (loop q) (loop q) := by
  intro s
  unfold Parser.loop
  suffices rounds : ∀ n s, inp.remaining s = n → ∀ s', s.Alongside p s' →
      EndsAlongside p (loopFrom q inp s) (loopFrom q inp' s')
        ∨ (loopFrom q inp s).Escapes inp p from rounds _ s rfl
  intro n
  induction n using Nat.strongRecOn with
  | ind n ih =>
      intro s left s' start
      rcases h s s' start with along | escapes
      · rw [loopFrom_apply, loopFrom_apply q inp']
        generalize q inp s = run at along
        generalize q inp' s' = run' at along
        cases along with
        | error failure state => exact .inl (.error failure state)
        | defect d state => exact .inl (.defect d state)
        | @ok found _ t t' value state =>
            cases value
            cases found with
            | none => exact .inl (.ok rfl state)
            | some a =>
                simp only [← alongside_progress shares start state]
                split
                next less =>
                    have rest := ih _ (left ▸ less) t rfl t' state
                    generalize loopFrom q inp t = more at rest
                    generalize loopFrom q inp' t' = more' at rest
                    rcases rest with along | escapes
                    · cases along with
                      | @ok as _ _ _ values state =>
                          cases values
                          exact .inl (.ok rfl state)
                      | error failure state =>
                          exact .inl (.error failure state)
                      | defect d state => exact .inl (.defect d state)
                    · cases more <;> exact .inr escapes
                next => exact .inl (.ok rfl state)
      · exact .inr (account.loop_escapes escapes)

-- ===================================================== all parsers

/-- Parsers that stay inside a declaration are confined, as far as
nested expressions are. -/
theorem Inside.confined {e : Parser Term} {declares : Prop} {free : Bool}
    {q : Parser α} (account : Accountable inp e)
    (nested : Confined inp inp' p e e) (h : Inside e declares free q) :
    Confined inp inp' p q q := by
  induction h with
  | pure => exact fun _ _ start => .inl (.ok rfl start)
  | bind _ after first next =>
      exact first.bind (fun a => (after a).accountable account) next
  | known _ ih => exact ih
  | nested => exact nested
  | look f => exact confined_look shares f
  | @seen _ _ _ f k _ without within absent present =>
      refine (confined_look shares f).bind (fun found => ?_) fun found => ?_
      · cases found with
        | none => exact without.accountable account
        | some a => exact (within a).accountable account
      · cases found with
        | none => exact absent
        | some a => exact present a
  | lastStop =>
      intro s s' start
      refine .inl (.ok ?_ start)
      show (inp.tokenAt (s.cursor - 1)).span.stop
        = (inp'.tokenAt (s'.cursor - 1)).span.stop
      rw [shares.token _ (Nat.le_trans (Nat.sub_le _ 1) start.le),
        start.cursor]
  | consult f =>
      exact fun _ _ start => .inl (.ok (congrArg f start.registry) start)
  | advance => exact confined_advance shares
  | accept => exact confined_accept shares
  | failWith complaint _ => exact confined_failWith shares complaint _
  | declareFixities _ entries =>
      intro s s' start
      refine .inl (.ok rfl ⟨start.cursor, start.le, ?_, start.furthest⟩)
      show s.registry.addFixities entries = s'.registry.addFixities entries
      rw [start.registry]
  | define _ name names =>
      intro s s' start
      refine .inl (.ok rfl ⟨start.cursor, start.le, ?_, start.furthest⟩)
      show s.registry.define name names = s'.registry.define name names
      rw [start.registry]
  | choice _ each ih =>
      exact confined_choice
        (fun q hq => (each q hq).accountable account) ih
  | optional _ a ih => exact ih.optional a
  | loop body ih => exact ih.loop shares (body.accountable account)

end

end Parser

end DepLang
