/-
Abandoned alternatives leave no trace. Two things are said of every
program over the token stream.

An attempt that fails is undone: the cursor, the fixities and the
implicit arguments are what they were. And what a failed alternative
does leave behind, the furthest failure and its events, is never read:
runs from two states that look the same, whatever else they have behind
them, find the same value and end in states that look the same
(`SelfAlike.simulates`). So a choice finds what its first alternative
that succeeds would have found alone.
-/
import DepLang.Proofs.Script.Built

namespace DepLang

open DepLang.Grammar DepLang.Parser

namespace Parser

variable {α : Type} {p : Parser α}

-- =========================================== what a run depends on

/-- Failing, an attempt goes back to a state that looks like the one it
was started in. -/
theorem Built.undone (h : Built p) {inp : Input} {s t : State}
    {e : Failure} (failed : Parser.attempt p inp s = .error e t) :
    t.LooksLike s :=
  h.selfAlike.undone failed

-- ==================================================== alternatives

/-- Programs that fail from where another one succeeds: a choice passes
over them. -/
theorem choice_passes (built : Built p) {inp : Input} {s t : State}
    {a : α} (found : p inp s = .ok a t) (after : List (Parser α))
    {before : List (Parser α)} (all : ∀ q ∈ before, Built q)
    {s' : State} (looks : s.LooksLike s')
    (fails : ∀ q ∈ before, ∃ u e w, u.LooksLike s
      ∧ q inp u = .error e w) :
    ∃ t', choice (before ++ p :: after) inp s' = .ok a t'
      ∧ t.LooksLike t' :=
  choice_passes_over built.selfAlike found after
    (fun q hq => (all q hq).selfAlike) looks fails

/-- Abandoned alternatives leave no trace. An attempt that fails leaves
the cursor, the fixities and the implicit arguments as they were. A
choice whose alternatives fail up to one that succeeds finds the value
of that one and ends in a state that looks the same, wherever that one
was run alone from a state that looked the same: with any journal, and
with no failures met before. -/
theorem abandoned_without_trace {α : Type} (inp : Input) :
    (∀ (p : Parser α) (s t : State) (e : Failure), Built p →
      attempt p inp s = .error e t → t.LooksLike s)
    ∧ ∀ (before after : List (Parser α)) (p : Parser α)
        (s alone t : State) (a : α), (∀ q ∈ p :: before, Built q) →
        (∀ q ∈ before, ∃ u e w, u.LooksLike s ∧ q inp u = .error e w) →
        alone.LooksLike s → p inp alone = .ok a t →
        ∃ t', choice (before ++ p :: after) inp s = .ok a t'
          ∧ t'.LooksLike t := by
  constructor
  · intro p s t e built failed
    exact built.undone failed
  · intro before after p s alone t a all fails looks found
    have fails' : ∀ q ∈ before, ∃ u e w, u.LooksLike alone
        ∧ q inp u = .error e w := by
      intro q hq
      obtain ⟨u, e, w, looks_u, run⟩ := fails q hq
      exact ⟨u, e, w, looks_u.trans looks.symm, run⟩
    obtain ⟨t', run, state⟩ := choice_passes (all p List.mem_cons_self)
      found after (fun q hq => all q (List.mem_cons_of_mem _ hq)) looks
      fails'
    exact ⟨t', run, state.symm⟩

/-- A script that declares an operator, redefines a name, reads a token
and then fails: attempted, it is undone, and before an alternative that
succeeds it is passed over. -/
theorem abandoned_without_trace_declaring :
    let inp : Input :=
      { tokens := #[⟨.ident "x", ⟨0, 1⟩⟩, ⟨.ident "y", ⟨2, 3⟩⟩]
        endSpelling := ""
        endSpan := ⟨3, 3⟩
        origin := ⟨"m", some "x y"⟩
        language := .standard }
    let s : State :=
      { registry := { implicits := [(.ofText "f", [.ofText "a"])] } }
    let p : Script Unit :=
      .seq [.declareFixities [⟨⟨.left, 6⟩, "+"⟩], .define (.ofText "f") [],
        .identifier, .natural]
    (∃ e t, attempt p.parser inp s = .error e t ∧ t.LooksLike s)
      ∧ ∃ t, (Script.choice [p, .identifier, .natural]).parser inp s
          = .ok (.token ⟨.ident "x", ⟨0, 1⟩⟩) t
        ∧ t.LooksLike { s with cursor := 1 } := by
  intro inp s p
  have built : Built p.parser := p.built (by decide)
  have reads : Built (Script.identifier (ρ := Unit)).parser :=
    Script.built _ (by decide)
  have failed : ∃ e t, attempt p.parser inp s = .error e t := ⟨_, _, rfl⟩
  have fails : ∃ e t, p.parser inp s = .error e t := ⟨_, _, rfl⟩
  constructor
  · obtain ⟨e, t, run⟩ := failed
    exact ⟨e, t, run, (abandoned_without_trace inp).1 _ s t e built run⟩
  · obtain ⟨e, t, run⟩ := fails
    refine (abandoned_without_trace inp).2 [p.parser] _ _ s s
      { s with cursor := 1 } _ ?_ ?_ (.refl s) rfl
    · intro q hq
      rcases List.mem_cons.1 hq with rfl | hq
      · exact reads
      · cases List.mem_singleton.1 hq
        exact built
    · intro q hq
      cases List.mem_singleton.1 hq
      exact ⟨s, e, t, .refl s, run⟩

end Parser

end DepLang
