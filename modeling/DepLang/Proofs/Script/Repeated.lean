/-
Repetition is maximal and clean. A program that is repeated runs from
where its last run has got to, as long as its runs read something; and
the repetition is over where the next run fails or reads nothing. What
it finds are the values of these runs in their order, and it ends where
the last of them did: a run that fails is taken back, with all that it
declared, and the runs before it stay as they are.

A run that reads something takes a token at least, and no run goes past
the end of the input, so there are no more runs than tokens left
(`Runs.length_le`). This is the measure on which runs in a row are
followed up to where they halt (`Built.exists_runs`). That a repetition
does what they did is one step per run (`Runs.map_many`).

Items with separators between them are an item, and a repetition of a
separator with an item after it. A separator that no item follows is
part of the run that fails, and so it is taken back with it.
-/
import DepLang.Proofs.Grammar.Bounded

namespace DepLang

open DepLang.Grammar DepLang.Parser

namespace Parser

variable {α β : Type} {p : Parser α} {q : Parser β} {inp : Input}
  {s t : State} {a : α} {as : List α}

-- ===================================================== runs in a row

/-- Runs of a parser one after the other, each of which reads something:
where they start, the values they find, and where they have got to. -/
inductive Runs (p : Parser α) (inp : Input) :
    State → List α → State → Prop
  | nil (s : State) : Runs p inp s [] s
  | cons {s t u : State} {a : α} {as : List α} (run : p inp s = .ok a t)
      (reads : s.cursor < t.cursor) (more : Runs p inp t as u) :
      Runs p inp s (a :: as) u

/-- The parser reads nothing more from here. -/
def Halts (p : Parser α) (inp : Input) (s : State) : Prop :=
  ∀ a t, p inp s = .ok a t → t.cursor = s.cursor

/-- How a repetition ends that has found some values and has got to a
state. The next run fails, and is taken back; or it reads nothing, and
is the last one; or it breaks off, and the repetition with it. -/
inductive RunsOut (p : Parser α) (inp : Input) (as : List α) (s : State) :
    Outcome (List α) → Prop
  | refused {e : Failure} {t u : State} (fails : p inp s = .error e t)
      (back : u.LooksLike s) : RunsOut p inp as s (.ok as u)
  | idle {a : α} {t : State} (last : p inp s = .ok a t)
      (still : t.cursor = s.cursor) : RunsOut p inp as s (.ok (as ++ [a]) t)
  | broken {d : Defect} {t : State} (breaks : p inp s = .defect d t) :
      RunsOut p inp as s (.defect d t)

/-- There are no more runs than tokens between where they start and where
they get to. -/
theorem Runs.length_le (runs : Runs p inp s as t) :
    s.cursor + as.length ≤ t.cursor := by
  induction runs with
  | nil => exact Nat.le_refl _
  | cons run reads more ih =>
      rw [List.length_cons]
      omega

/-- A program that starts on a token ends on one no further back. -/
theorem Built.stays (built : Built p) (inside : s.cursor ≤ inp.tokens.size)
    (run : p inp s = .ok a t) :
    s.cursor ≤ t.cursor ∧ t.cursor ≤ inp.tokens.size := by
  have stays := built.selfAlike.stays inside
  rw [run] at stays
  exact stays

/-- A run that reads something leaves less of the input. -/
theorem Built.remaining_lt (built : Built p)
    (inside : s.cursor ≤ inp.tokens.size) (run : p inp s = .ok a t)
    (reads : s.cursor < t.cursor) : inp.remaining t < inp.remaining s := by
  have within := (built.stays inside run).2
  unfold Input.remaining
  omega

/-- There are runs in a row up to where a program halts. -/
theorem Built.exists_runs (built : Built p)
    (inside : s.cursor ≤ inp.tokens.size) :
    ∃ as t, Runs p inp s as t ∧ t.cursor ≤ inp.tokens.size
      ∧ Halts p inp t := by
  induction left : inp.remaining s using Nat.strong_induction_on
    generalizing s with
  | _ n ih =>
      by_cases halts : Halts p inp s
      · exact ⟨[], s, .nil s, inside, halts⟩
      · obtain ⟨a, t, run, moved⟩ : ∃ a t, p inp s = .ok a t
            ∧ t.cursor ≠ s.cursor := by
          simpa [Halts] using halts
        obtain ⟨forth, within⟩ := built.stays inside run
        have reads : s.cursor < t.cursor := by omega
        have less := built.remaining_lt inside run reads
        obtain ⟨as, u, runs, within, halts⟩ := ih _ (left ▸ less) within rfl
        exact ⟨a :: as, u, .cons run reads runs, within, halts⟩

-- ========================================================= repeating

/-- A repetition goes on from where runs in a row have got to, whatever
is made of its values. -/
theorem Runs.map_many (built : Built p)
    (inside : s.cursor ≤ inp.tokens.size) (runs : Runs p inp s as t)
    (f : List α → β) :
    (f <$> many p) inp s = ((fun more => f (as ++ more)) <$> many p) inp t := by
  induction runs generalizing f with
  | nil s => rfl
  | @cons s t u a as run reads more ih =>
      obtain ⟨-, within⟩ := built.stays inside run
      have less := built.remaining_lt inside run reads
      calc (f <$> many p) inp s
          = (f <$> (a :: ·) <$> many p) inp t := by
            rw [map_apply, many_apply, run]
            simp only [if_pos less]
            rfl
        _ = ((fun more => f (a :: more)) <$> many p) inp t := by
            rw [Functor.map_map]
        _ = ((fun more => f (a :: as ++ more)) <$> many p) inp u :=
            ih within fun more => f (a :: more)

/-- Where a program halts, its repetition ends. -/
theorem Built.runsOut (built : Built p) (halts : Halts p inp s)
    (as : List α) :
    RunsOut p inp as s (((as ++ ·) <$> Parser.many p) inp s) := by
  rw [map_apply, many_apply]
  have follows := built.selfAlike.steady inp s
  cases run : p inp s with
  | ok a t =>
      have still := halts a t run
      have stuck : ¬ inp.remaining t < inp.remaining s := by
        unfold Input.remaining
        omega
      simp only [if_neg stuck]
      exact .idle run still
  | error e t =>
      rw [run] at follows
      have undone : (rewind s t).registry = s.registry :=
        registry_rewind follows
      simp only [List.append_nil]
      exact .refused run ⟨rfl, by rw [undone], by rw [undone]⟩
  | defect d t => exact .broken run

/-- A repetition that comes after some values runs as long as its
program reads, and then ends. -/
theorem Built.repeats (built : Built p)
    (inside : s.cursor ≤ inp.tokens.size) (before : List α) :
    ∃ as t, Runs p inp s as t ∧ s.cursor + as.length ≤ t.cursor
      ∧ t.cursor ≤ inp.tokens.size
      ∧ RunsOut p inp (before ++ as) t
        (((before ++ ·) <$> Parser.many p) inp s) := by
  obtain ⟨as, t, runs, within, halts⟩ := built.exists_runs inside
  refine ⟨as, t, runs, runs.length_le, within, ?_⟩
  have ended := built.runsOut halts (before ++ as)
  simp only [List.append_assoc] at ended
  rw [runs.map_many built inside (before ++ ·)]
  exact ended

/-- After the first item, separated items are a repetition. -/
theorem sepBy1_of_ok (run : p inp s = .ok a t) :
    sepBy1 p q inp s = ((a :: ·) <$> many (q >>= fun _ => p)) inp t := by
  show (p >>= fun a => (a :: ·) <$> many (q >>= fun _ => p)) inp s = _
  rw [bind_apply, run]

/-- A repetition whose next run fails ends with the values it has
found. -/
theorem RunsOut.of_error {outcome : Outcome (List α)} {e : Failure}
    (ended : RunsOut p inp as s outcome) (fails : p inp s = .error e t) :
    ∃ u, outcome = .ok as u ∧ u.LooksLike s := by
  cases ended with
  | refused _ back => exact ⟨_, rfl, back⟩
  | idle last =>
      rw [fails] at last
      cases last
  | broken breaks =>
      rw [fails] at breaks
      cases breaks

-- ======================================================== repetition

/-- Repetition is maximal and clean. A repeated program runs over and
over, each time from the state that its last run has left and each time
taking a token, until a run fails, which is taken back, or reads
nothing, which is the last one: the values of the runs are found in
their order, and cursor, fixities and implicit arguments are as the last
run that found something has left them. Nothing but a defect of the
program itself can break it off. Separated items are a first item and
then a repetition, of a separator and an item. So a separator that no
item follows is left unread, and what was declared while trying it is
undone. -/
theorem repetition_maximal (item : Built p) (separator : Built q)
    (inside : s.cursor ≤ inp.tokens.size) :
    (∃ as t, Runs p inp s as t ∧ s.cursor + as.length ≤ t.cursor
        ∧ t.cursor ≤ inp.tokens.size ∧ RunsOut p inp as t (many p inp s))
      ∧ ∀ a t, p inp s = .ok a t →
        (∃ as u, Runs (q >>= fun _ => p) inp t as u
          ∧ t.cursor + as.length ≤ u.cursor ∧ u.cursor ≤ inp.tokens.size
          ∧ RunsOut (q >>= fun _ => p) inp (a :: as) u (sepBy1 p q inp s))
        ∧ ∀ as u b v e w, Runs (q >>= fun _ => p) inp t as u →
          q inp u = .ok b v → p inp v = .error e w →
          ∃ x, sepBy1 p q inp s = .ok (a :: as) x ∧ x.LooksLike u := by
  have round : Built (q >>= fun _ => p) := .bind separator fun _ => item
  constructor
  · have repeats := item.repeats inside []
    simp only [List.nil_append, id_map'] at repeats
    exact repeats
  · intro a t first
    obtain ⟨-, within⟩ := item.stays inside first
    rw [sepBy1_of_ok first]
    refine ⟨round.repeats within [a], ?_⟩
    intro as u b v e w runs separated fails
    have trailing : (q >>= fun _ => p) inp u = .error e w := by
      rw [bind_apply, separated]
      exact fails
    have halts : Halts (q >>= fun _ => p) inp u := by
      intro a t run
      rw [trailing] at run
      cases run
    rw [runs.map_many round within]
    exact (round.runsOut halts (a :: as)).of_error trailing

/-- Identifiers between commas that declare an operator and define a
name each time. After the second comma there is no identifier: it is left
unread, and what it has declared is gone, but what the first one has
declared is not. -/
theorem repetition_maximal_trailing :
    let inp : Input :=
      { tokens := #[⟨.ident "x", ⟨0, 1⟩⟩, ⟨.ofMark .comma, ⟨1, 2⟩⟩,
          ⟨.ident "y", ⟨3, 4⟩⟩, ⟨.ofMark .comma, ⟨4, 5⟩⟩,
          ⟨.ofMark .semicolon, ⟨5, 6⟩⟩]
        endSpelling := ""
        endSpan := ⟨6, 6⟩
        origin := ⟨"m", some "x, y,;"⟩
        language := .standard }
    let p : Script Unit := .identifier
    let q : Script Unit :=
      .seq [.expect (.mark .comma), .declareFixities [⟨⟨.left, 6⟩, "+"⟩],
        .define (.ofText "f") [.ofText "a"]]
    (∃ as t, Runs p.parser inp {} as t
        ∧ RunsOut p.parser inp as t (many p.parser inp {}))
      ∧ ∃ x, sepBy1 p.parser q.parser inp {}
          = .ok [.token ⟨.ident "x", ⟨0, 1⟩⟩, .token ⟨.ident "y", ⟨3, 4⟩⟩] x
        ∧ x.cursor = 3 ∧ x.registry.fixities = [⟨⟨.left, 6⟩, "+"⟩]
        ∧ x.registry.implicits = [(.ofText "f", [.ofText "a"])] := by
  intro inp p q
  have item : Built p.parser := p.built (by decide)
  have separator : Built q.parser := q.built (by decide)
  have inside : ({} : State).cursor ≤ inp.tokens.size := by decide
  obtain ⟨⟨as, t, runs, -, -, ended⟩, separated⟩ :=
    repetition_maximal item separator inside
  obtain ⟨-, trailing⟩ := separated _ { cursor := 1 } rfl
  obtain ⟨x, found, looks⟩ := trailing _ _ _ _ _ _
    (.cons rfl (by decide) (.nil _)) rfl rfl
  exact ⟨⟨as, t, runs, ended⟩, x, found, looks.cursor, looks.fixities,
    looks.implicits⟩

end Parser

end DepLang
