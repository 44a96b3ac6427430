/-
Choices whose order does not matter. If no two alternatives of a choice
succeed from the same state, it makes no difference in which order they
are tried (`unordered_of_exclusive`): a choice that finds something
finds it by the one alternative that succeeds, and one that fails sums
up the failures of all.

The first is plain only because failed alternatives leave nothing behind
that counts. So the induction over the alternatives that have been tried
carries two things: the state still looks like the one the choice was
entered in, and the failure so far sums up those that were met
(`choiceAfter_chooses`).
-/
import DepLang.Proofs.Grammar.Inside
import DepLang.Proofs.Grammar.Looks
import Mathlib.Data.List.Pairwise

namespace DepLang

open DepLang.Grammar

/-- Failures that stand at one place and expect the same. -/
structure Failure.Concurs (e f : Failure) : Prop where
  start : e.span.start = f.span.start
  expected : ∀ x, x ∈ e.expected ↔ x ∈ f.expected

/-- Whatever sums up the same failures concurs. -/
theorem Failure.Sums.concurs {met : List Failure} {e f : Failure}
    (he : e.Sums met) (hf : f.Sums met) : e.Concurs f := by
  have start : e.span.start = f.span.start := by
    obtain ⟨g, hg, sameE⟩ := he.place
    obtain ⟨h, hh, sameF⟩ := hf.place
    apply Nat.le_antisymm
    · rw [← sameE]
      exact hf.furthest g hg
    · rw [← sameF]
      exact he.furthest h hh
  refine ⟨start, fun x => ⟨fun hx => ?_, fun hx => ?_⟩⟩
  · obtain ⟨g, hg, same, inside⟩ := he.expected x hx
    exact hf.complete g hg (same.trans start) x inside
  · obtain ⟨g, hg, same, inside⟩ := hf.expected x hx
    exact he.complete g hg (same.trans start.symm) x inside

namespace Parser

variable {α : Type} {p : Parser α} {ps : List (Parser α)} {inp : Input}
  {s : State}

-- ========================================================= regular

/-- A parser built as the rules are: alike to itself, and inside a
declaration. -/
structure Regular (p : Parser α) : Prop where
  alike : SelfAlike p
  inside : Inside expr True false p

/-- The parser finds something from the state. -/
def Succeeds (inp : Input) (s : State) (p : Parser α) : Prop :=
  ∃ a t, p inp s = .ok a t

/-- A regular parser finds something or fails, expecting nothing
twice. -/
theorem Regular.cases (h : Regular p) (inp : Input) (s : State) :
    Succeeds inp s p
      ∨ ∃ e t, p inp s = .error e t ∧ e.expected.Nodup := by
  cases run : p inp s with
  | ok a t => exact .inl ⟨a, t, run⟩
  | error e t =>
      have accountable := h.inside.accountable (expr_accountable inp)
      exact .inr ⟨e, t, rfl, accountable.nodup run⟩
  | defect d t =>
      exact absurd run (h.inside.sound (expr_sound inp) s d t)

-- ========================================================= choices

/-- How a choice from a state ends, after failures were met: with what
one of the alternatives finds there, or, if all of them fail, with the
sum of all failures and where it began. -/
inductive Chooses (inp : Input) (s : State) (ps : List (Parser α))
    (met : List Failure) : Outcome α → Prop
  | found {p : Parser α} {a : α} {t t' : State} (member : p ∈ ps)
      (run : p inp s = .ok a t) (looks : t.LooksLike t') :
      Chooses inp s ps met (.ok a t')
  | none {all : List Failure} {e : Failure} {t' : State}
      (fails : ∀ p ∈ ps, ¬Succeeds inp s p)
      (every : ∀ f, f ∈ all
        ↔ f ∈ met ∨ ∃ p ∈ ps, ∃ u, p inp s = .error f u)
      (sums : e.Sums all) (looks : t'.LooksLike s) :
      Chooses inp s ps met (.error e t')

/-- An alternative that succeeds ends the choice. -/
theorem Chooses.of_ok {met : List Failure} {otherwise : Failure → Parser α}
    (alike : SelfAlike p) {s' : State} (looks : s.LooksLike s')
    (succeeds : Succeeds inp s p) :
    Chooses inp s (p :: ps) met (attemptElse p otherwise inp s') := by
  obtain ⟨a, t, run⟩ := succeeds
  obtain ⟨t', found, state⟩ := alike.attempt_ok looks run
  unfold attemptElse
  rw [found]
  exact .found List.mem_cons_self run state

/-- After an alternative that fails the choice goes on with the others,
its failure being met. -/
theorem Chooses.cons {met : List Failure} {run : Outcome α} {e : Failure}
    {t : State} (failed : p inp s = .error e t)
    (rest : Chooses inp s ps (e :: met) run) :
    Chooses inp s (p :: ps) met run := by
  cases rest with
  | found member run looks =>
      exact .found (List.mem_cons_of_mem p member) run looks
  | none fails every sums looks =>
      refine .none (fun q hq => ?_) (fun f => ?_) sums looks
      · rcases List.mem_cons.1 hq with rfl | hq
        · rintro ⟨a, u, run⟩
          rw [failed] at run
          cases run
        · exact fails q hq
      · rw [every, List.mem_cons]
        constructor
        · rintro ((rfl | old) | ⟨q, hq, later⟩)
          · exact .inr ⟨p, List.mem_cons_self, t, failed⟩
          · exact .inl old
          · exact .inr ⟨q, List.mem_cons_of_mem p hq, later⟩
        · rintro (old | ⟨q, hq, u, run⟩)
          · exact .inl (.inr old)
          · rcases List.mem_cons.1 hq with rfl | hq
            · rw [failed] at run
              cases run
              exact .inl (.inl rfl)
            · exact .inr ⟨q, hq, u, run⟩

theorem choiceAfter_chooses (regular : ∀ p ∈ ps, Regular p) :
    ∀ {met : List Failure} {failed : Failure} {s' : State},
      failed.Sums met → s.LooksLike s' →
      Chooses inp s ps met (choiceAfter failed ps inp s') := by
  induction ps with
  | nil =>
      intro met failed s' sums looks
      exact .none (fun p hp => by cases hp) (fun f => by simp) sums
        looks.symm
  | cons p ps ih =>
      intro met failed s' sums looks
      have first := regular p List.mem_cons_self
      rw [choiceAfter_cons]
      rcases first.cases inp s with succeeds | ⟨e, t, run, distinct⟩
      · exact .of_ok first.alike looks succeeds
      · obtain ⟨t', fails, back⟩ := first.alike.attempt_error looks run
        unfold attemptElse
        rw [fails]
        exact .cons run <|
          ih (fun q hq => regular q (List.mem_cons_of_mem p hq))
            (sums.cons distinct) (looks.trans back.symm)

theorem choice_chooses (regular : ∀ p ∈ ps, Regular p) (some : ps ≠ [])
    {s' : State} (looks : s.LooksLike s') :
    Chooses inp s ps [] (choice ps inp s') := by
  cases ps with
  | nil => exact absurd rfl some
  | cons p ps =>
      have first := regular p List.mem_cons_self
      rw [choice_cons]
      rcases first.cases inp s with succeeds | ⟨e, t, run, distinct⟩
      · exact .of_ok first.alike looks succeeds
      · obtain ⟨t', fails, back⟩ := first.alike.attempt_error looks run
        unfold attemptElse
        rw [fails]
        exact .cons run <|
          choiceAfter_chooses
            (fun q hq => regular q (List.mem_cons_of_mem p hq))
            (Failure.sums_single distinct) (looks.trans back.symm)

-- =========================================================== order

/-- No two of the alternatives succeed from the state. -/
def Exclusive (inp : Input) (s : State) (ps : List (Parser α)) : Prop :=
  ps.Pairwise fun p q => ¬(Succeeds inp s p ∧ Succeeds inp s q)

/-- From the state, at most one of the alternatives succeeds, and in
whatever order they are tried the choice comes to the same: it finds the
same value and leaves the same cursor, fixities and implicit arguments,
or it fails at the same place for want of the same. -/
structure Unordered (inp : Input) (s : State) (ps : List (Parser α)) :
    Prop where
  exclusive : Exclusive inp s ps
  reordered : ∀ ps', ps'.Perm ps →
    Outcome.Matches .same Failure.Concurs State.LooksLike
      (choice ps' inp s) (choice ps inp s)

/-- Two of exclusive alternatives that succeed are the same. -/
theorem Exclusive.eq (exclusive : Exclusive inp s ps) {q : Parser α}
    (hp : p ∈ ps) (hq : q ∈ ps) (succeeds : Succeeds inp s p)
    (succeeds' : Succeeds inp s q) : p = q := by
  by_contra other
  have symm : Std.Symm fun p q : Parser α =>
      ¬(Succeeds inp s p ∧ Succeeds inp s q) :=
    ⟨fun _ _ h both => h ⟨both.2, both.1⟩⟩
  exact List.Pairwise.forall exclusive hp hq other ⟨succeeds, succeeds'⟩

/-- Two runs that choose from the same exclusive alternatives match. -/
theorem Chooses.matches {ps' : List (Parser α)} {run run' : Outcome α}
    (exclusive : Exclusive inp s ps) (same : ∀ p, p ∈ ps' ↔ p ∈ ps)
    (h : Chooses inp s ps' [] run) (h' : Chooses inp s ps [] run') :
    Outcome.Matches .same Failure.Concurs State.LooksLike run run' := by
  cases h with
  | @found p a t _ member found looks =>
      cases h' with
      | @found q a' t' _ member' found' looks' =>
          cases exclusive.eq ((same p).1 member) member' ⟨a, t, found⟩
            ⟨a', t', found'⟩
          rw [found] at found'
          cases found'
          exact .ok rfl (looks.symm.trans looks')
      | none fails => exact absurd ⟨a, t, found⟩ (fails p ((same p).1 member))
  | none fails every sums looks =>
      cases h' with
      | @found q a' t' _ member' found' =>
          exact absurd ⟨a', t', found'⟩ (fails q ((same q).2 member'))
      | none _ every' sums' looks' =>
          have alternatives (f : Failure) :
              (∃ p ∈ ps', ∃ u, p inp s = .error f u)
                ↔ ∃ p ∈ ps, ∃ u, p inp s = .error f u := by
            simp only [same]
          have sums := sums.congr fun f => (every f).trans <|
            (or_congr_right (alternatives f)).trans (every' f).symm
          exact .error (sums.concurs sums') (looks.trans looks'.symm)

theorem unordered_of_exclusive (regular : ∀ p ∈ ps, Regular p)
    (some : ps ≠ []) (exclusive : Exclusive inp s ps) :
    Unordered inp s ps where
  exclusive := exclusive
  reordered ps' perm := by
    have chooses' : Chooses inp s ps' [] (choice ps' inp s) := by
      apply choice_chooses _ _ (.refl s)
      · exact fun p hp => regular p (perm.mem_iff.1 hp)
      · rintro rfl
        exact some perm.nil_eq.symm
    exact chooses'.matches exclusive (fun p => perm.mem_iff)
      (choice_chooses regular some (.refl s))

end Parser

end DepLang
