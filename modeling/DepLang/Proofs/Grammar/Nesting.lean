/-
Expressions inside expressions. The grammar bounds the nesting of
expressions by the number of tokens left; here the bound is shown to be
no restriction. A nested expression is entered after a token of the
outer one, so an expression reads its operands as if it could enter
itself: `expr_eq_exprOver` is the grammar's circle, closed, and later
proofs about expressions start from it and see no bound.

The same induction, on what is left of the input, carries every
simulation through expressions (`expr_simulates`), provided that its
states have the same operators, or operators that read the input alike
(`expr_simulates_of_levels`).
-/
import DepLang.Proofs.Grammar.Alike
import DepLang.Proofs.Parser.Simulation

namespace DepLang.Grammar

open DepLang.Parser

variable {e e' : Parser Term}

-- ============================================== what a run respects

section
variable {Q : State → State → Prop} (lasting : Lasting Q)
include lasting

theorem chains_respects (he : Respects Q e) (levels : List Level) :
    Respects Q (chains (operand e) levels) := by
  have alike : TermAlike True e e false (chains (operand e) levels)
      (chains (operand e) levels) := chains_alike levels operand_alike
  exact (alike.respects lasting he he).1

theorem exprWithin_respects (depth : Nat) :
    Respects Q (exprWithin depth) := by
  induction depth with
  | zero => exact fun _ s => lasting.refl s
  | succ depth ih =>
      exact fun inp s => chains_respects lasting ih _ inp s

/-- Expressions respect whatever all primitives do. -/
theorem expr_respects : Respects Q expr :=
  fun inp s => exprWithin_respects lasting _ inp s

end

theorem chains_steady (he : Steady e) (levels : List Level) :
    Steady (chains (operand e) levels) :=
  chains_respects lasting_follows he levels

theorem exprWithin_steady (depth : Nat) : Steady (exprWithin depth) :=
  exprWithin_respects lasting_follows depth

theorem expr_steady : Steady expr :=
  expr_respects lasting_follows

-- ===================================================== simulations

section
variable {exact : Prop} {inp inp' : Input} {σ : Simulation exact inp inp'}

/-- Expressions run alike, as far as nested ones do, if the operators of
states in relation read the left input alike. -/
theorem exprOver_simulates {n : Nat} (he : Steady e) (he' : Steady e')
    (levels : ∀ {s s'}, σ.rel s s' → ∀ t,
      chains (operand e) s.registry.fixities.levels.reverse inp t
        = chains (operand e) s'.registry.fixities.levels.reverse inp t)
    (nested : σ.Simulates n true (Term.likeness exact) e e') :
    σ.Simulates n false (Term.likeness exact) (exprOver e) (exprOver e') := by
  intro s s' start room
  have alike : TermAlike exact e e' false
      (chains (operand e) s'.registry.fixities.levels.reverse)
      (chains (operand e') s'.registry.fixities.levels.reverse) :=
    chains_alike _ operand_alike
  have run := alike.simulates he he' nested s s' start room
  unfold exprOver
  rw [levels start]
  exact run

end

-- ==================================================== enough depth

/-- Every state simulates itself. -/
def Simulation.identity (inp : Input) : Simulation True inp inp :=
  Congruence.simulation {
    rel := Eq
    cursor := congrArg State.cursor
    implicits := congrArg fun s : State => s.registry.implicitsOf?
    past := congrArg (past inp)
    record := by
      rintro s _ rfl e
      rfl
    declareFixities := by
      rintro s _ rfl entries
      rfl
    define := by
      rintro s _ rfl name names
      rfl
    rewind := by
      rintro s _ t _ rfl rfl _ _
      rfl }

/-- Outcomes that the identity relates are equal. -/
theorem eq_of_matches_identity {inp : Input} {a a' : Outcome Term}
    (h : (Simulation.identity inp).Matches (Term.likeness True) a a') :
    a = a' := by
  cases h with
  | ok value state =>
      cases value.eq
      cases state
      rfl
  | error failure state =>
      cases failure
      cases state
      rfl
  | defect d state =>
      cases state
      rfl

/-- An expression depends on nested ones only from where less of the
input is left. -/
theorem exprOver_congr (he : Steady e) (he' : Steady e') {inp : Input}
    {s : State}
    (nested : ∀ t, inp.remaining t < inp.remaining s →
      e inp t = e' inp t) :
    exprOver e inp s = exprOver e' inp s := by
  have alike : (Simulation.identity inp).Simulates (inp.remaining s) true
      (Term.likeness True) e e' := by
    rintro t _ rfl room
    rw [nested t (room.2 rfl)]
    generalize e' inp t = outcome
    cases outcome with
    | ok a u => exact .ok (.refl a) rfl
    | error f u => exact .error rfl rfl
    | defect d u => exact .defect d rfl
  refine eq_of_matches_identity (exprOver_simulates he he' ?_ alike s s rfl ?_)
  · rintro t _ rfl _
    rfl
  · exact ⟨Nat.le_refl _, fun h => by cases h⟩

/-- Any two depths beyond what is left of the input do. -/
theorem exprWithin_eq {inp : Input} :
    ∀ {n : Nat} {s : State} {d d' : Nat}, inp.remaining s = n →
      n < d → n < d' → exprWithin d inp s = exprWithin d' inp s := by
  intro n
  induction n using Nat.strongRecOn with
  | ind n ih =>
      intro s d d' left deep deep'
      obtain ⟨k, rfl⟩ : ∃ k, d = k + 1 := ⟨d - 1, by omega⟩
      obtain ⟨k', rfl⟩ : ∃ k', d' = k' + 1 := ⟨d' - 1, by omega⟩
      refine exprOver_congr (exprWithin_steady k) (exprWithin_steady k') ?_
      intro t less
      rw [left] at less
      exact ih _ less rfl (by omega) (by omega)

/-- One depth is deep enough for two inputs, wherever an expression
starts in them. -/
theorem exists_exprWithin (inp inp' : Input) :
    ∃ depth, (∀ s, expr inp s = exprWithin depth inp s)
      ∧ ∀ s, expr inp' s = exprWithin depth inp' s := by
  refine ⟨inp.tokens.size + inp'.tokens.size + 1, fun s => ?_, fun s => ?_⟩
  · exact exprWithin_eq rfl (Nat.lt_succ_self _)
      (by unfold Input.remaining; omega)
  · exact exprWithin_eq rfl (Nat.lt_succ_self _)
      (by unfold Input.remaining; omega)

/-- An expression reads its operands as if it could enter itself. -/
theorem expr_eq_exprOver : expr = exprOver expr := by
  funext inp s
  show exprOver (exprWithin (inp.remaining s)) inp s = _
  refine exprOver_congr (exprWithin_steady _) expr_steady ?_
  intro t less
  exact exprWithin_eq rfl less (Nat.lt_succ_self _)

/-- A simulation whose states have operators that read the left input
alike simulates expressions. -/
theorem expr_simulates_of_levels {exact : Prop} {inp inp' : Input}
    {σ : Simulation exact inp inp'}
    (levels : ∀ {s s'}, σ.rel s s' → ∀ t,
      chains (operand expr) s.registry.fixities.levels.reverse inp t
        = chains (operand expr) s'.registry.fixities.levels.reverse inp t) :
    ∀ n, σ.Simulates n true (Term.likeness exact) expr expr := by
  intro n
  induction n with
  | zero =>
      intro s s' _ room
      exact absurd (room.2 rfl) (Nat.not_lt_zero _)
  | succ n ih =>
      intro s s' start room
      rw [expr_eq_exprOver]
      have left : inp.remaining s ≤ n := Nat.le_of_lt_succ (room.2 rfl)
      exact exprOver_simulates expr_steady expr_steady levels ih s s' start
        ⟨left, fun h => by cases h⟩

/-- A simulation whose states have the same operators simulates
expressions. -/
theorem expr_simulates {exact : Prop} {inp inp' : Input}
    {σ : Simulation exact inp inp'}
    (fixities : ∀ {s s'}, σ.rel s s' →
      s.registry.fixities = s'.registry.fixities) :
    ∀ n, σ.Simulates n true (Term.likeness exact) expr expr :=
  expr_simulates_of_levels fun start t => by rw [fixities start]

end DepLang.Grammar
