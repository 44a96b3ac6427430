/-
What a run depends on. Two states look the same if they differ in their
journals, furthest failures and events at most, and nothing else makes a
difference: a parser that is built alike to itself, as all rules are,
runs from both to the same value and to states that look the same
(`SelfAlike.simulates`). An attempt that fails goes back to a state that
looks like the one it began in.

So a choice is not disturbed by what its failed alternatives leave
behind, and finds what the first one that succeeds finds alone
(`choice_passes_over`).
-/
import DepLang.Proofs.Grammar.AlikeDecl
import DepLang.Proofs.Grammar.Nesting

namespace DepLang

open DepLang.Grammar DepLang.Parser

-- ================================================= alike to itself

/-- Built alike from the expressions of the grammar, once a token has
been read. -/
abbrev SelfAlike {α : Type} (p : Parser α) : Prop :=
  Alike True expr expr true true .same p p

/-- Values that agree in full are the same. -/
theorem Parser.Alike.same {α γ : Type} {forget : α → γ} {p : Parser α}
    {b c : Bool} (h : Alike True expr expr b c (.upTo True forget) p p) :
    Alike True expr expr b c .same p p :=
  .weaken h id id fun _ _ agree => agree.eq

/-- The same of lists. -/
theorem Parser.Alike.sameList {α : Type} {p : Parser (List α)}
    (h : Alike True expr expr true true (Likeness.same).list p p) :
    SelfAlike p :=
  .weaken h id id fun _ _ => Likeness.eq_of_same

-- ===================================================== same looks

/-- Two states that differ in their journals, furthest failures and
events at most. -/
structure State.LooksLike (t s : State) : Prop where
  cursor : t.cursor = s.cursor
  fixities : t.registry.fixities = s.registry.fixities
  implicits : t.registry.implicits = s.registry.implicits

namespace State.LooksLike

theorem refl (s : State) : s.LooksLike s := ⟨rfl, rfl, rfl⟩

theorem symm {t s : State} (h : t.LooksLike s) : s.LooksLike t :=
  ⟨h.cursor.symm, h.fixities.symm, h.implicits.symm⟩

theorem trans {u t s : State} (h : u.LooksLike t) (h' : t.LooksLike s) :
    u.LooksLike s :=
  ⟨h.cursor.trans h'.cursor, h.fixities.trans h'.fixities,
    h.implicits.trans h'.implicits⟩

theorem past {t s : State} (h : t.LooksLike s) (inp : Input) :
    (past inp t).LooksLike (past inp s) := by
  unfold Parser.past
  rw [h.cursor]
  split
  · exact h
  · exact ⟨rfl, h.fixities, h.implicits⟩

theorem addFixities {t s : State} (h : t.LooksLike s) (inp : Input)
    (entries : List FixityEntry) :
    (declareFixities entries inp t).state.LooksLike
      (declareFixities entries inp s).state where
  cursor := h.cursor
  fixities := congrArg (FixityTable.add entries) h.fixities
  implicits := h.implicits

theorem define {t s : State} (h : t.LooksLike s) (inp : Input)
    (name : Name) (names : List Name) :
    (define name names inp t).state.LooksLike
      (Parser.define name names inp s).state where
  cursor := h.cursor
  fixities := h.fixities
  implicits := congrArg (ImplicitTable.put name names) h.implicits

/-- Going back to states that look the same. -/
theorem rewind {s s' t t' : State} (h : s.LooksLike s')
    (later : t.Follows s) (later' : t'.Follows s') :
    (rewind s t).LooksLike (Parser.rewind s' t') where
  cursor := h.cursor
  fixities := by
    rw [registry_rewind later, registry_rewind later', h.fixities]
  implicits := by
    rw [registry_rewind later, registry_rewind later', h.implicits]

end State.LooksLike

/-- Nothing but the looks of a state makes a difference. -/
def Parser.Simulation.byLooks (inp : Input) : Simulation True inp inp :=
  Congruence.simulation {
    rel := State.LooksLike
    cursor := fun h => h.cursor
    implicits := fun h =>
      congrArg (fun table x => table.lookup x) h.implicits
    past := fun h => h.past inp
    record := fun h _ => ⟨h.cursor, h.fixities, h.implicits⟩
    declareFixities := fun h => h.addFixities inp
    define := fun h => h.define inp
    rewind := fun h _ later later' => h.rewind later later' }

-- =========================================== what a run depends on

namespace SelfAlike

variable {α : Type} {p : Parser α}

theorem steady (h : SelfAlike p) : Steady p :=
  (Alike.steady expr_steady expr_steady h).1

/-- A parser runs alike from states that look the same. -/
theorem simulates (h : SelfAlike p) (inp : Input) {s s' : State}
    (looks : s.LooksLike s') :
    (Simulation.byLooks inp).Matches .same (p inp s) (p inp s') := by
  have nested := expr_simulates (σ := Simulation.byLooks inp)
    (fun looks => looks.fixities) (inp.remaining s + 1)
  refine Alike.simulates expr_steady expr_steady nested h s s' looks ?_
  exact ⟨Nat.le_succ _, fun _ => Nat.lt_succ_self _⟩

theorem ok (h : SelfAlike p) {inp : Input} {s s' t : State}
    (looks : s.LooksLike s') {a : α} (run : p inp s = .ok a t) :
    ∃ t', p inp s' = .ok a t' ∧ t.LooksLike t' := by
  have ran := h.simulates inp looks
  rw [run] at ran
  generalize p inp s' = run' at ran
  cases ran with
  | ok value state =>
      cases value
      exact ⟨_, rfl, state⟩

theorem error (h : SelfAlike p) {inp : Input} {s s' t : State}
    (looks : s.LooksLike s') {e : Failure} (run : p inp s = .error e t) :
    ∃ t', p inp s' = .error e t' := by
  have ran := h.simulates inp looks
  rw [run] at ran
  generalize p inp s' = run' at ran
  cases ran with
  | error failure state =>
      cases failure
      exact ⟨_, rfl⟩

/-- Failing, an attempt goes back to a state that looks like the one it
was started in. -/
theorem undone (h : SelfAlike p) {inp : Input} {s t : State}
    {e : Failure} (failed : Parser.attempt p inp s = .error e t) :
    t.LooksLike s := by
  obtain ⟨cursor, registry⟩ := attempt_error h.steady failed
  exact ⟨cursor, by rw [registry], by rw [registry]⟩

/-- What succeeds from a state that looks the same, an attempt finds. -/
theorem attempt_ok (h : SelfAlike p) {inp : Input} {s s' t : State}
    (looks : s.LooksLike s') {a : α} (run : p inp s = .ok a t) :
    ∃ t', Parser.attempt p inp s' = .ok a t' ∧ t.LooksLike t' := by
  obtain ⟨t', run', state⟩ := h.ok looks run
  refine ⟨t', ?_, state⟩
  unfold Parser.attempt
  rw [run']

/-- What fails from a state that looks the same fails when attempted,
and goes back to such a state. -/
theorem attempt_error (h : SelfAlike p) {inp : Input} {s s' t : State}
    (looks : s.LooksLike s') {e : Failure} (run : p inp s = .error e t) :
    ∃ t', Parser.attempt p inp s' = .error e t' ∧ t'.LooksLike s' := by
  obtain ⟨u, run'⟩ := h.error looks run
  have failed : Parser.attempt p inp s' = .error e (rewind s' u) := by
    unfold Parser.attempt
    rw [run']
  exact ⟨_, failed, h.undone failed⟩

end SelfAlike

-- ==================================================== alternatives

/-- Alternatives that fail from where another one succeeds: the choice
passes over them and finds what the other one finds. -/
theorem Parser.choice_passes_over {α : Type} {p : Parser α}
    (alike : SelfAlike p) {inp : Input} {s t : State} {a : α}
    (found : p inp s = .ok a t) (after : List (Parser α)) :
    ∀ {before : List (Parser α)}, (∀ q ∈ before, SelfAlike q) →
      ∀ {s' : State}, s.LooksLike s' →
      (∀ q ∈ before, ∃ u e w, u.LooksLike s ∧ q inp u = .error e w) →
      ∃ t', choice (before ++ p :: after) inp s' = .ok a t'
        ∧ t.LooksLike t' := by
  intro before
  induction before with
  | nil =>
      intro _ s' looks _
      obtain ⟨t', run, state⟩ := alike.attempt_ok looks found
      refine ⟨t', ?_, state⟩
      rw [List.nil_append, choice_cons]
      unfold attemptElse
      rw [run]
  | cons q before ih =>
      intro all s' looks fails
      obtain ⟨u, e, w, looks_u, run⟩ := fails q List.mem_cons_self
      obtain ⟨u', failed, back⟩ :=
        (all q List.mem_cons_self).attempt_error (looks_u.trans looks) run
      obtain ⟨t', rest, state⟩ :=
        ih (fun q hq => all q (List.mem_cons_of_mem _ hq))
          (looks.trans back.symm)
          (fun q hq => fails q (List.mem_cons_of_mem _ hq))
      refine ⟨t', ?_, state⟩
      rw [List.cons_append, choice_cons]
      unfold attemptElse
      rw [failed]
      exact (choice_ok_iff e).1 rest

end DepLang
