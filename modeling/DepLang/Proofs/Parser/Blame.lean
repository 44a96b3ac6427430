/-
What a failing run puts the blame on. Failures begin in one place, with
a token and with what was expected there, and no rule expects the same
thing twice. So every run of a parser that is put together from the
primitives and the combinators meets failures of this kind
(`Inside.accountable`), and what is known of the failures that a run
meets is known of it: a run that fails blames a token that it could not
get past, one at the cursor where it started or behind it, the furthest
failure that it leaves lies at least as far on, and it expects nothing
twice.

None of this looks into a run a second time. A parser is accountable if
its failures can be listed from every state, and the list is built along
with the parser, combinator by combinator.
-/
import DepLang.Proofs.Parser.Inside
import DepLang.Proofs.Parser.Meets

namespace DepLang.Parser

variable {α β : Type} {inp : Input}

/-- From every state, the parser meets failures none of which expects
the same thing twice. -/
def Accountable (inp : Input) (p : Parser α) : Prop :=
  ∀ s, ∃ met, Meets inp p s met ∧ ∀ f ∈ met, f.expected.Nodup

-- ========================================================= failures

section
variable {p : Parser α} {s t : State} {e f : Failure}

/-- What a run fails with expects nothing twice. -/
theorem Accountable.nodup (h : Accountable inp p)
    (run : p inp s = .error e t) : e.expected.Nodup := by
  obtain ⟨met, meets, distinct⟩ := h s
  exact (meets.accounts.merged e t run).nodup distinct

/-- A run that fails blames a token that was not read before it, and the
furthest failure then lies there or behind. -/
theorem Accountable.blames (h : Accountable inp p)
    (run : p inp s = .error e t) :
    (∃ i, s.cursor ≤ i ∧ e.span = (inp.tokenAt i).span)
      ∧ ∃ m ∈ t.furthest, e.span.start ≤ m.span.start := by
  obtain ⟨met, meets, -⟩ := h s
  have accounts := meets.accounts
  obtain ⟨f, member, same⟩ := (accounts.merged e t run).speaks.place
  obtain ⟨i, le, there⟩ := accounts.placed f member
  have kept := accounts.furthest
  rw [run] at kept
  obtain ⟨m, found, further⟩ :=
    Failure.furthest_reaches s.furthest member
  rw [same] at further
  exact ⟨⟨i, le, same ▸ there⟩, m, kept ▸ found, further⟩

/-- The parser never loses sight of how far failures got. -/
def Keeps (inp : Input) (p : Parser α) : Prop :=
  ∀ s, ∀ f ∈ s.furthest,
    ∃ m ∈ (p inp s).state.furthest, f.span.start ≤ m.span.start

theorem Accountable.keeps (h : Accountable inp p) : Keeps inp p := by
  intro s f member
  obtain ⟨met, meets, -⟩ := h s
  rw [meets.accounts.furthest]
  exact Failure.furthest_keeps member

/-- No run goes back behind its start. -/
theorem Accountable.onward (h : Accountable inp p) (s : State) :
    s.cursor ≤ (p inp s).state.cursor := by
  obtain ⟨met, meets, -⟩ := h s
  exact meets.accounts.onward

end

-- ======================================================= primitives

theorem accountable_ask (f : Input → State → α) :
    Accountable inp (ask f) :=
  fun s => ⟨[], .ask f s, by simp⟩

theorem accountable_pure (a : α) : Accountable inp (pure a) :=
  accountable_ask fun _ _ => a

theorem accountable_advance : Accountable inp advance :=
  fun s => ⟨[], .advance s, by simp⟩

theorem accountable_broken (d : Defect) :
    Accountable inp (broken d : Parser α) :=
  fun s => ⟨[], .broken d s, by simp⟩

theorem accountable_failWith (complaint : Option Complaint)
    {expected : List String} (distinct : expected.Nodup) :
    Accountable inp (failWith complaint expected : Parser α) :=
  fun s => ⟨_, .failWith complaint expected s,
    List.forall_mem_singleton.2 distinct⟩

theorem accountable_fail (expected : String) :
    Accountable inp (fail [expected] : Parser α) :=
  accountable_failWith none (List.pairwise_singleton _ expected)

theorem accountable_accept (read : Language → Token → Option α)
    (expected : String) : Accountable inp (accept read expected) := by
  intro s
  cases found : read inp.language (inp.tokenAt s.cursor) with
  | some a => exact ⟨[], .accepted found, by simp⟩
  | none =>
      exact ⟨_, .refused found,
        List.forall_mem_singleton.2 (List.pairwise_singleton _ expected)⟩

theorem accountable_mark (m : Mark) : Accountable inp (mark m) := by
  unfold mark expect acceptIf
  exact accountable_accept _ _

theorem accountable_declareFixities (entries : List FixityEntry) :
    Accountable inp (declareFixities entries) :=
  fun s => ⟨[], .declareFixities entries s, by simp⟩

theorem accountable_define (name : Name) (names : List Name) :
    Accountable inp (define name names) :=
  fun s => ⟨[], .define name names s, by simp⟩

-- ===================================================== combinators

namespace Accountable

theorem bind {p : Parser α} {f : α → Parser β} (first : Accountable inp p)
    (next : ∀ a, Accountable inp (f a)) : Accountable inp (p >>= f) := by
  intro s
  obtain ⟨met, begun, distinct⟩ := first s
  cases run : p inp s with
  | ok a t =>
      obtain ⟨more, later, distinct'⟩ := next a t
      exact ⟨met ++ more, .bind begun run later,
        List.forall_mem_append.2 ⟨distinct, distinct'⟩⟩
  | error | defect =>
      exact ⟨met, .stop begun fun a t found => by simp [run] at found,
        distinct⟩

theorem attempt {p : Parser α} (h : Accountable inp p) :
    Accountable inp (attempt p) := by
  intro s
  obtain ⟨met, body, distinct⟩ := h s
  exact ⟨met, .attempt body, distinct⟩

theorem choice {ps : List (Parser α)}
    (each : ∀ p ∈ ps, Accountable inp p) : Accountable inp (choice ps) := by
  induction ps with
  | nil => exact fun s => ⟨[], .untried s, by simp⟩
  | cons p ps ih =>
      intro s
      obtain ⟨met, first, distinct⟩ := each p List.mem_cons_self s
      cases run : p inp s with
      | ok | defect =>
          exact ⟨met, .chosen first fun e t failed => by simp [run] at failed,
            distinct⟩
      | error e t =>
          obtain ⟨more, others, distinct'⟩ :=
            ih (fun q hq => each q (List.mem_cons_of_mem p hq)) (rewind s t)
          exact ⟨met ++ more, .other first run others,
            List.forall_mem_append.2 ⟨distinct, distinct'⟩⟩

theorem optional {p : Parser α} (h : Accountable inp p) (a : α) :
    Accountable inp (optional p a) := by
  intro s
  obtain ⟨met, body, distinct⟩ := h s
  exact ⟨met, .optional body a, distinct⟩

/-- The rounds of a loop are listed until one of them is the last. -/
theorem loop {p : Parser (Option α)} (h : Accountable inp p) :
    Accountable inp (loop p) := by
  suffices rounds : ∀ n s, inp.remaining s = n →
      ∃ met, Meets inp (Parser.loop p) s met
        ∧ ∀ f ∈ met, f.expected.Nodup from fun s => rounds _ s rfl
  intro n
  induction n using Nat.strongRecOn with
  | ind n ih =>
      intro s left
      obtain ⟨met, round, distinct⟩ := h s
      by_cases goes : ∃ a t, p inp s = .ok (some a) t
        ∧ inp.remaining t < inp.remaining s
      · obtain ⟨a, t, run, less⟩ := goes
        obtain ⟨more, rest, distinct'⟩ := ih _ (left ▸ less) t rfl
        exact ⟨met ++ more, .round round run less rest,
          List.forall_mem_append.2 ⟨distinct, distinct'⟩⟩
      · exact ⟨met, .last round fun a t run less => goes ⟨a, t, run, less⟩,
          distinct⟩

end Accountable

/-- A choice that goes on after a failure loses sight of nothing
either. -/
theorem keeps_choiceAfter {ps : List (Parser α)}
    (each : ∀ p ∈ ps, Accountable inp p) (failed : Failure) :
    Keeps inp (choiceAfter failed ps) := by
  intro s f member
  rw [state_choiceAfter]
  exact (Accountable.choice each).keeps s f member

-- ===================================================== all parsers

/-- However parsers are put together, they account for their failures as
nested expressions do. -/
theorem Inside.accountable {e : Parser Term} {declares : Prop}
    {free : Bool} {p : Parser α} (nested : Accountable inp e)
    (h : Inside e declares free p) : Accountable inp p := by
  induction h with
  | pure a => exact accountable_pure a
  | bind _ _ first next => exact first.bind next
  | known _ ih => exact ih
  | nested => exact nested
  | look => exact accountable_ask _
  | @seen _ _ _ f k _ _ _ absent present =>
      refine (accountable_ask _).bind fun found => ?_
      cases found with
      | none => exact absent
      | some a => exact present a
  | lastStop => exact accountable_ask _
  | consult => exact accountable_ask _
  | advance => exact accountable_advance
  | accept => exact accountable_accept _ _
  | failWith complaint distinct =>
      exact accountable_failWith complaint distinct
  | declareFixities _ entries => exact accountable_declareFixities entries
  | define _ name names => exact accountable_define name names
  | choice _ _ ih => exact .choice ih
  | optional _ a ih => exact ih.optional a
  | loop _ ih => exact ih.loop

end DepLang.Parser
