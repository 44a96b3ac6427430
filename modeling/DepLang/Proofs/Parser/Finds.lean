/-
What parsers find. A condition on values, proved of a parser without a
word on where it stands or what it fails with: whenever it finds a
value, the value meets the condition. Under conditions of the parts, the
combinators have one of the whole, and where a parser goes on from what
another found, it may rely on it.

What a parser finds can depend on the fixities, so these are held fixed:
the parsers meant here declare none, and an attempt that fails goes back
to those it started with.
-/
import DepLang.Proofs.Parser.Inside

namespace DepLang.Parser

variable {α β : Type} {inp : Input} {table : FixityTable}
  {P : α → Prop} {Q : β → Prop}

/-- Whatever the parser finds over the input, under the given fixities,
meets the condition, and they are the fixities still. -/
def Finds (inp : Input) (table : FixityTable) (P : α → Prop)
    (p : Parser α) : Prop :=
  ∀ s a t, s.registry.fixities = table → p inp s = .ok a t →
    P a ∧ t.registry.fixities = table

-- ======================================================= primitives

theorem finds_pure {a : α} (h : P a) : Finds inp table P (pure a) := by
  intro s b t start run
  cases run
  exact ⟨h, start⟩

theorem finds_ask {f : Input → State → α}
    (h : ∀ s, P (f inp s)) : Finds inp table P (ask f) := by
  intro s a t start run
  cases run
  exact ⟨h s, start⟩

theorem finds_failWith {complaint : Option Complaint}
    {expected : List String} :
    Finds inp table P (failWith complaint expected) := by
  intro s a t start run
  cases run

theorem finds_advance : Finds inp table (fun _ => True) advance := by
  intro s a t start run
  cases run
  refine ⟨trivial, ?_⟩
  rw [registry_past]
  exact start

/-- What is read off a token. -/
theorem finds_accept {read : Language → Token → Option α}
    {expected : String}
    (h : ∀ i a, read inp.language (inp.tokenAt i) = some a → P a) :
    Finds inp table P (accept read expected) := by
  intro s a t start run
  unfold accept at run
  split at run
  next found =>
    cases run
    refine ⟨h s.cursor a found, ?_⟩
    rw [registry_past]
    exact start
  next => cases run

/-- A token that passes a test is one of the input. -/
theorem finds_acceptIf {test : Language → Lexeme → Bool}
    {expected : String} :
    Finds inp table
      (fun t => ∃ i, t = inp.tokenAt i ∧ test inp.language t.lexeme = true)
      (acceptIf test expected) := by
  refine finds_accept fun i t found => ?_
  split at found
  next passes =>
    cases found
    exact ⟨i, rfl, passes⟩
  next => cases found

-- ===================================================== combinators

namespace Finds

theorem imp {p : Parser α} {R : α → Prop} (h : Finds inp table P p)
    (weaker : ∀ a, P a → R a) : Finds inp table R p := by
  intro s a t start run
  obtain ⟨found, kept⟩ := h s a t start run
  exact ⟨weaker a found, kept⟩

/-- Where the value does not count. -/
theorem any {p : Parser α} (h : Finds inp table P p) :
    Finds inp table (fun _ => True) p :=
  h.imp fun _ _ => trivial

theorem bind {p : Parser α} {f : α → Parser β} (hp : Finds inp table P p)
    (hf : ∀ a, P a → Finds inp table Q (f a)) :
    Finds inp table Q (p >>= f) := by
  intro s b t start run
  obtain ⟨a, u, first, second⟩ := bind_ok run
  obtain ⟨found, kept⟩ := hp s a u start first
  exact hf a found u b t kept second

theorem map {p : Parser α} {f : α → β} (h : Finds inp table P p)
    (value : ∀ a, P a → Q (f a)) : Finds inp table Q (f <$> p) :=
  h.bind fun a found => finds_pure (value a found)

theorem attemptElse {p : Parser α} {k : Failure → Parser α}
    (hp : Finds inp table P p) (hk : ∀ e, Finds inp table P (k e)) :
    Finds inp table P (attemptElse p k) := by
  intro s a t start run
  unfold Parser.attemptElse at run
  cases first : Parser.attempt p inp s with
  | ok b u =>
      rw [first] at run
      cases run
      exact hp s a t start (ok_of_attempt first)
  | error e u =>
      rw [first] at run
      -- a failed attempt restores the fixities it started with
      have restored : u.registry.fixities = s.registry.fixities := by
        unfold Parser.attempt at first
        cases body : p inp s with
        | ok b v =>
            rw [body] at first
            cases first
        | error e' v =>
            rw [body] at first
            cases first
            rfl
        | defect d v =>
            rw [body] at first
            cases first
      exact hk e u a t (restored.trans start) run
  | defect d u =>
      rw [first] at run
      cases run

theorem choiceAfter {ps : List (Parser α)}
    (each : ∀ p ∈ ps, Finds inp table P p) :
    ∀ failed, Finds inp table P (choiceAfter failed ps) := by
  induction ps with
  | nil =>
      intro failed s a t start run
      cases run
  | cons p ps ih =>
      intro failed
      have rest := ih fun q hq => each q (List.mem_cons_of_mem p hq)
      rw [choiceAfter_cons]
      exact (each p List.mem_cons_self).attemptElse fun e => rest _

theorem choice {ps : List (Parser α)}
    (each : List.Forall (Finds inp table P) ps) :
    Finds inp table P (choice ps) := by
  have each := List.forall_iff_forall_mem.1 each
  cases ps with
  | nil =>
      intro s a t start run
      cases run
  | cons p ps =>
      rw [choice_cons]
      exact (each p List.mem_cons_self).attemptElse <|
        choiceAfter fun q hq => each q (List.mem_cons_of_mem p hq)

theorem optional {p : Parser α} (h : Finds inp table P p) {a : α}
    (default : P a) : Finds inp table P (optional p a) := by
  rw [optional_eq]
  exact h.attemptElse fun _ => finds_pure default

theorem loop {p : Parser (Option α)}
    (h : Finds inp table (fun o => ∀ a ∈ o, P a) p) :
    Finds inp table (fun as => ∀ a ∈ as, P a) (loop p) := by
  intro s as t start run
  replace run := rounds_of_loop run
  induction run with
  | none round =>
      obtain ⟨-, kept⟩ := h _ _ _ start round
      exact ⟨fun a ha => (List.not_mem_nil ha).elim, kept⟩
  | last round =>
      obtain ⟨found, kept⟩ := h _ _ _ start round
      exact ⟨List.forall_mem_singleton.2 (found _ rfl), kept⟩
  | more round _ _ ih =>
      obtain ⟨found, kept⟩ := h _ _ _ start round
      obtain ⟨others, kept⟩ := ih kept
      exact ⟨List.forall_mem_cons.2 ⟨found _ rfl, others⟩, kept⟩

theorem many {p : Parser α} (h : Finds inp table P p) :
    Finds inp table (fun as => ∀ a ∈ as, P a) (many p) := by
  have round : Finds inp table (fun o => ∀ a ∈ o, P a) (some <$> p) :=
    h.map fun a found b same => Option.some.inj same ▸ found
  exact (round.optional fun a ha => by cases ha).loop

/-- At least one. -/
theorem many1 {p : Parser α} (h : Finds inp table P p) :
    Finds inp table (fun as => as ≠ [] ∧ ∀ a ∈ as, P a) (many1 p) :=
  h.bind fun a first => h.many.bind fun as others => finds_pure
    ⟨List.cons_ne_nil a as, List.forall_mem_cons.2 ⟨first, others⟩⟩

theorem sepBy1 {p : Parser α} {separator : Parser β}
    (h : Finds inp table P p) (between : Finds inp table Q separator) :
    Finds inp table (fun as => as ≠ [] ∧ ∀ a ∈ as, P a)
      (sepBy1 p separator) :=
  h.bind fun a first => (between.bind fun _ _ => h).many.bind
    fun as others => finds_pure
      ⟨List.cons_ne_nil a as, List.forall_mem_cons.2 ⟨first, others⟩⟩

end Finds

end DepLang.Parser
