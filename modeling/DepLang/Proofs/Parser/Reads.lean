/-
Runs that move the cursor and nothing else. An expression declares
nothing, so what its rules do depends on where they start and under
which registry, and can be said without states: a rule reads a value
from one cursor to another (`Reads`), or it refuses to start at one
(`Refuses`). Both leave the registry alone, whatever failures and events
there were before.

Each combinator gets the rules by which its runs follow from those of
its parts; an attempt that refuses is as if it had not been made.
-/
import DepLang.Proofs.Parser.Follows

namespace DepLang.Parser

variable {α β : Type}

/-- The state stands at a cursor under a registry. -/
def At (i : Nat) (r : Registry) (s : State) : Prop :=
  s.cursor = i ∧ s.registry = r

/-- The parser finds the value from one cursor to another. -/
def Reads (inp : Input) (r : Registry) (p : Parser α) (i j : Nat)
    (a : α) : Prop :=
  ∀ s, At i r s → ∃ t, At j r t ∧ p inp s = .ok a t

/-- The parser fails from the cursor. -/
def Refuses (inp : Input) (r : Registry) (p : Parser α) (i : Nat) :
    Prop :=
  ∀ s, At i r s → ∃ e t, t.registry = r ∧ p inp s = .error e t

variable {inp : Input} {r : Registry} {p : Parser α} {i j k : Nat}
  {a : α} {b : β}

/-- Where a parser refuses, it finds no value. -/
theorem Refuses.not_ok {s t : State} (stops : Refuses inp r p i)
    (start : At i r s) : p inp s ≠ .ok a t := by
  intro run
  obtain ⟨e, u, -, fails⟩ := stops s start
  rw [run] at fails
  cases fails

/-- No parser does both. -/
theorem Reads.not_refuses (h : Reads inp r p i j a) :
    ¬Refuses inp r p i := by
  intro stops
  have start : At i r { cursor := i, registry := r } := ⟨rfl, rfl⟩
  obtain ⟨t, -, run⟩ := h _ start
  exact stops.not_ok start run

-- ======================================================== sequences

theorem reads_pure (a : α) : Reads inp r (pure a) i i a :=
  fun s h => ⟨s, h, rfl⟩

theorem Reads.bind {f : α → Parser β} (first : Reads inp r p i j a)
    (next : Reads inp r (f a) j k b) : Reads inp r (p >>= f) i k b := by
  intro s h
  obtain ⟨t, ht, run⟩ := first s h
  obtain ⟨u, hu, rest⟩ := next t ht
  refine ⟨u, hu, ?_⟩
  rw [bind_apply, run]
  exact rest

theorem Reads.bind_refuses {f : α → Parser β}
    (first : Reads inp r p i j a) (next : Refuses inp r (f a) j) :
    Refuses inp r (p >>= f) i := by
  intro s h
  obtain ⟨t, ht, run⟩ := first s h
  obtain ⟨e, u, hu, rest⟩ := next t ht
  refine ⟨e, u, hu, ?_⟩
  rw [bind_apply, run]
  exact rest

theorem Refuses.bind {f : α → Parser β} (first : Refuses inp r p i) :
    Refuses inp r (p >>= f) i := by
  intro s h
  obtain ⟨e, t, ht, run⟩ := first s h
  refine ⟨e, t, ht, ?_⟩
  rw [bind_apply, run]

theorem Reads.map {f : α → β} (h : Reads inp r p i j a) :
    Reads inp r (f <$> p) i j (f a) :=
  h.bind (reads_pure (f a))

theorem Refuses.map {f : α → β} (h : Refuses inp r p i) :
    Refuses inp r (f <$> p) i :=
  h.bind

-- ====================================================== primitives

/-- A parser that looks at the token at the cursor. -/
theorem reads_look (f : Token → α) :
    Reads inp r (ask fun inp s => f (inp.tokenAt s.cursor)) i i
      (f (inp.tokenAt i)) := by
  intro s h
  refine ⟨s, h, ?_⟩
  rw [← h.1]
  rfl

theorem refuses_failWith (complaint : Option Complaint)
    (expected : List String) :
    Refuses inp r (failWith complaint expected : Parser α) i := by
  intro s h
  refine ⟨_, _, ?_, rfl⟩
  exact h.2

/-- A token that is not the end of the input is passed. -/
theorem at_past {s : State} (h : At i r s)
    (inside : (inp.tokenAt i).kind ≠ .eof) :
    At (i + 1) r (past inp s) := by
  unfold past
  rw [h.1, if_neg inside]
  exact ⟨rfl, h.2⟩

theorem reads_advance (inside : (inp.tokenAt i).kind ≠ .eof) :
    Reads inp r advance i (i + 1) (inp.tokenAt i) := by
  intro s h
  refine ⟨past inp s, at_past h inside, ?_⟩
  rw [← h.1]
  rfl

theorem reads_accept {read : Language → Token → Option α}
    {expected : String} (inside : (inp.tokenAt i).kind ≠ .eof)
    (found : read inp.language (inp.tokenAt i) = some a) :
    Reads inp r (accept read expected) i (i + 1) a := by
  intro s h
  refine ⟨past inp s, at_past h inside, ?_⟩
  unfold accept
  rw [h.1, found]

theorem refuses_accept {read : Language → Token → Option α}
    {expected : String}
    (absent : read inp.language (inp.tokenAt i) = none) :
    Refuses inp r (accept read expected) i := by
  intro s h
  have fails : Refuses inp r (fail [expected] : Parser α) i :=
    refuses_failWith none [expected]
  obtain ⟨e, t, ht, run⟩ := fails s h
  refine ⟨e, t, ht, ?_⟩
  unfold accept
  rw [h.1, absent]
  exact run

theorem reads_acceptIf {test : Language → Lexeme → Bool}
    {expected : String} {l : Lexeme} (token : (inp.tokenAt i).lexeme = l)
    (inside : l.kind ≠ .eof) (passes : test inp.language l = true) :
    Reads inp r (acceptIf test expected) i (i + 1) (inp.tokenAt i) := by
  subst token
  exact reads_accept inside (if_pos passes)

theorem refuses_acceptIf {test : Language → Lexeme → Bool}
    {expected : String} {l : Lexeme} (token : (inp.tokenAt i).lexeme = l)
    (stops : test inp.language l = false) :
    Refuses inp r (acceptIf test expected) i := by
  subst token
  refine refuses_accept (if_neg ?_)
  rw [stops]
  exact Bool.false_ne_true

-- ==================================================== alternatives

theorem Reads.attempt (h : Reads inp r p i j a) :
    Reads inp r (attempt p) i j a := by
  intro s hs
  obtain ⟨t, ht, run⟩ := h s hs
  refine ⟨t, ht, ?_⟩
  unfold Parser.attempt
  rw [run]

/-- An attempt that fails ends where it began. -/
theorem Refuses.attempt (h : Refuses inp r p i) {s : State}
    (hs : At i r s) :
    ∃ e t, At i r t ∧ Parser.attempt p inp s = .error e t := by
  obtain ⟨e, t, ht, run⟩ := h s hs
  refine ⟨e, rewind s t, ⟨hs.1, ?_⟩, ?_⟩
  · show t.registry.restore s.registry.snapshot = r
    rw [ht, hs.2, Registry.restore_snapshot]
  · unfold Parser.attempt
    rw [run]

theorem Reads.attemptElse {k : Failure → Parser α}
    (h : Reads inp r p i j a) :
    Reads inp r (attemptElse p k) i j a := by
  intro s hs
  obtain ⟨t, ht, run⟩ := h.attempt s hs
  refine ⟨t, ht, ?_⟩
  unfold Parser.attemptElse
  rw [run]

theorem Refuses.attemptElse {k : Failure → Parser α}
    (h : Refuses inp r p i) (otherwise : ∀ e, Reads inp r (k e) i j a) :
    Reads inp r (attemptElse p k) i j a := by
  intro s hs
  obtain ⟨e, t, ht, run⟩ := h.attempt hs
  obtain ⟨u, hu, rest⟩ := otherwise e t ht
  refine ⟨u, hu, ?_⟩
  unfold Parser.attemptElse
  rw [run]
  exact rest

theorem Refuses.attemptElse_refuses {k : Failure → Parser α}
    (h : Refuses inp r p i) (otherwise : ∀ e, Refuses inp r (k e) i) :
    Refuses inp r (Parser.attemptElse p k) i := by
  intro s hs
  obtain ⟨e, t, ht, run⟩ := h.attempt hs
  obtain ⟨e', u, hu, rest⟩ := otherwise e t ht
  refine ⟨e', u, hu, ?_⟩
  unfold Parser.attemptElse
  rw [run]
  exact rest

/-- The first alternative, if it reads. -/
theorem Reads.choice {ps : List (Parser α)} (h : Reads inp r p i j a) :
    Reads inp r (choice (p :: ps)) i j a := by
  rw [choice_cons]
  exact h.attemptElse

/-- What the other alternatives read, if the first one refuses. -/
theorem Refuses.choice {ps : List (Parser α)} (h : Refuses inp r p i)
    (rest : Reads inp r (choice ps) i j a) :
    Reads inp r (choice (p :: ps)) i j a := by
  rw [choice_cons]
  refine h.attemptElse fun e s hs => ?_
  obtain ⟨t, ht, run⟩ := rest s hs
  exact ⟨t, ht, (choice_ok_iff e).1 run⟩

theorem refuses_choiceAfter {ps : List (Parser α)}
    (h : ∀ p ∈ ps, Refuses inp r p i) :
    ∀ failed, Refuses inp r (choiceAfter failed ps) i := by
  induction ps with
  | nil => exact fun failed s hs => ⟨failed, s, hs.2, rfl⟩
  | cons p ps ih =>
      intro failed
      rw [choiceAfter_cons]
      exact (h p List.mem_cons_self).attemptElse_refuses fun e =>
        ih (fun q hq => h q (List.mem_cons_of_mem p hq)) _

/-- A choice refuses where all its alternatives do. -/
theorem refuses_choice {ps : List (Parser α)}
    (h : ∀ q ∈ p :: ps, Refuses inp r q i) :
    Refuses inp r (Parser.choice (p :: ps)) i := by
  rw [choice_cons]
  exact (h p List.mem_cons_self).attemptElse_refuses fun e =>
    refuses_choiceAfter (fun q hq => h q (List.mem_cons_of_mem p hq)) e

theorem Reads.optional (h : Reads inp r p i j a) (default : α) :
    Reads inp r (optional p default) i j a := by
  rw [optional_eq]
  exact h.attemptElse

theorem Refuses.optional (h : Refuses inp r p i) (default : α) :
    Reads inp r (optional p default) i i default := by
  rw [optional_eq]
  exact h.attemptElse fun _ => reads_pure default

-- ======================================================= repetition

section
variable {next : Parser (Option α)} {as : List α}

theorem reads_loop_nil (h : Reads inp r next i j none) :
    Reads inp r (loop next) i j [] := by
  intro s hs
  obtain ⟨t, ht, run⟩ := h s hs
  refine ⟨t, ht, ?_⟩
  rw [loop_apply, run]

/-- A value that cost a token is followed by those after it. -/
theorem remaining_lt_of_at {r' : Registry} {s t : State} (hs : At i r s)
    (ht : At j r' t) (inside : (inp.tokenAt i).kind ≠ .eof) (less : i < j) :
    inp.remaining t < inp.remaining s := by
  have bound := lt_size_of_kind inside
  rw [Input.remaining, Input.remaining, hs.1, ht.1]
  omega

theorem reads_loop_cons (inside : (inp.tokenAt i).kind ≠ .eof)
    (less : i < j) (h : Reads inp r next i j (some a))
    (rest : Reads inp r (loop next) j k as) :
    Reads inp r (loop next) i k (a :: as) := by
  intro s hs
  obtain ⟨t, ht, run⟩ := h s hs
  obtain ⟨u, hu, more⟩ := rest.map (f := (a :: ·)) t ht
  refine ⟨u, hu, ?_⟩
  rw [loop_apply, run]
  simp only [if_pos (remaining_lt_of_at hs ht inside less)]
  exact more

theorem refuses_loop (h : Refuses inp r next i) :
    Refuses inp r (loop next) i := by
  intro s hs
  obtain ⟨e, t, ht, run⟩ := h s hs
  refine ⟨e, t, ht, ?_⟩
  rw [loop_apply, run]

theorem refuses_loop_cons (inside : (inp.tokenAt i).kind ≠ .eof)
    (less : i < j) (h : Reads inp r next i j (some a))
    (rest : Refuses inp r (loop next) j) :
    Refuses inp r (loop next) i := by
  intro s hs
  obtain ⟨t, ht, run⟩ := h s hs
  obtain ⟨e, u, hu, more⟩ := rest.map (f := (a :: ·)) t ht
  refine ⟨e, u, hu, ?_⟩
  rw [loop_apply, run]
  simp only [if_pos (remaining_lt_of_at hs ht inside less)]
  exact more

end

theorem reads_many_nil (h : Refuses inp r p i) :
    Reads inp r (many p) i i [] :=
  reads_loop_nil (h.map.optional none)

theorem reads_many_cons {as : List α}
    (inside : (inp.tokenAt i).kind ≠ .eof) (less : i < j)
    (h : Reads inp r p i j a) (rest : Reads inp r (many p) j k as) :
    Reads inp r (many p) i k (a :: as) :=
  reads_loop_cons inside less (h.map.optional none) rest

theorem Reads.many1 {as : List α} (h : Reads inp r p i j a)
    (rest : Reads inp r (many p) j k as) :
    Reads inp r (many1 p) i k (a :: as) :=
  h.bind (rest.bind (reads_pure _))

end DepLang.Parser
