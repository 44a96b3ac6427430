/-
An expression in a frame. An input may hold all of another one between
some lexemes in front and a mark behind it that closes an expression:
the parentheses around a term, or a name with a colon in front of a
type and the semicolon behind it. In its frame the expression is read
as it is alone, and the other way round (`Frames.carries`,
`Frames.carries_back`).

What stands in the frame is first cut free of what is in front of it,
which is a matter of counting (`Simulation.shift`). What is left and the
input that is framed have the same lexemes up to the mark, and no rule
looks beyond it (`carries_expr`).
-/
import DepLang.Proofs.Grammar.Context
import DepLang.Proofs.Grammar.DeclForms

namespace DepLang

open DepLang.Parser

-- ========================================================== inputs

namespace Input

variable {inp long : Input} {front : List Lexeme} {m : Mark} {i : Nat}

theorem tokenAt_of_size_le (outside : inp.tokens.size ≤ i) :
    inp.tokenAt i = ⟨.eof inp.endSpelling, inp.endSpan⟩ := by
  unfold tokenAt
  rw [Array.getElem?_eq_none outside]
  rfl

/-- The input from its token `n` on. -/
def drop (inp : Input) (n : Nat) : Input :=
  { inp with tokens := inp.tokens.drop n }

theorem tokenAt_drop (inp : Input) (n i : Nat) :
    (inp.drop n).tokenAt i = inp.tokenAt (n + i) := by
  simp only [tokenAt, drop, Array.drop_eq_extract, Array.getElem?_extract]
  split
  · rfl
  · rw [Array.getElem?_eq_none (by omega)]

theorem standsAt_drop {n : Nat} (room : n ≤ inp.tokens.size) :
    (inp.drop n).StandsAt inp n where
  language := rfl
  size := by
    simp only [drop, Array.drop_eq_extract, Array.size_extract]
    omega
  lexeme i := by rw [tokenAt_drop]

/-- The lexemes of the input's tokens. -/
def lexemes (inp : Input) : List Lexeme :=
  inp.tokens.toList.map Token.lexeme

theorem length_lexemes (inp : Input) :
    inp.lexemes.length = inp.tokens.size := by
  simp [lexemes]

theorem getElem?_lexemes (inside : i < inp.tokens.size) :
    inp.lexemes[i]? = some (inp.tokenAt i).lexeme := by
  simp [lexemes, tokenAt, inside]

theorem lexeme_of_getElem? {l : Lexeme} (found : inp.lexemes[i]? = some l) :
    (inp.tokenAt i).lexeme = l := by
  have inside := (List.getElem?_eq_some_iff.1 found).1
  rw [length_lexemes] at inside
  rw [getElem?_lexemes inside] at found
  exact Option.some.inj found

/-- The longer input holds the other one between the lexemes in front
and a mark behind it, with which it ends. -/
structure Frames (long inp : Input) (front : List Lexeme) (m : Mark) :
    Prop where
  language : inp.language = long.language
  lexemes : long.lexemes = front ++ (inp.lexemes ++ [.ofMark m])

namespace Frames

variable (frames : long.Frames inp front m)
include frames

theorem size :
    long.tokens.size = front.length + inp.tokens.size + 1 := by
  rw [← length_lexemes, frames.lexemes]
  simp [length_lexemes, Nat.add_assoc]

theorem ahead {l : Lexeme} (found : front[i]? = some l) :
    (long.tokenAt i).lexeme = l := by
  apply lexeme_of_getElem?
  have inside := (List.getElem?_eq_some_iff.1 found).1
  rw [frames.lexemes, List.getElem?_append_left inside, found]

theorem lexeme (inside : i < inp.tokens.size) :
    (inp.tokenAt i).lexeme = (long.tokenAt (front.length + i)).lexeme := by
  refine (lexeme_of_getElem? ?_).symm
  rw [frames.lexemes, List.getElem?_append_right (Nat.le_add_right _ _),
    Nat.add_sub_cancel_left,
    List.getElem?_append_left (by rwa [length_lexemes])]
  exact getElem?_lexemes inside

theorem behind :
    (long.tokenAt (front.length + inp.tokens.size)).lexeme
      = .ofMark m := by
  apply lexeme_of_getElem?
  rw [frames.lexemes, ← length_lexemes,
    List.getElem?_append_right (Nat.le_add_right _ _),
    Nat.add_sub_cancel_left, List.getElem?_concat_length]

theorem kind_behind :
    (long.tokenAt (front.length + inp.tokens.size)).kind = .mark m := by
  rw [Token.kind, frames.behind]
  rfl

theorem ended :
    (long.tokenAt (front.length + inp.tokens.size + 1)).kind = .eof := by
  rw [tokenAt_of_size_le (by rw [frames.size])]
  rfl

/-- What is behind the front has the same lexemes up to the mark. -/
theorem sameBefore :
    inp.SameBefore (long.drop front.length) inp.tokens.size where
  language := frames.language
  lexeme i less := by rw [frames.lexeme less, tokenAt_drop]

theorem standsAt :
    (long.drop front.length).StandsAt long front.length :=
  standsAt_drop (by rw [frames.size]; omega)

/-- A lexeme that is neither in front nor framed is found behind only. -/
theorem only_behind {kind : TokenKind} {k : Nat}
    (token : (long.tokenAt k).kind = kind) (inside : kind ≠ .eof)
    (others : ∀ l ∈ front, l.kind ≠ kind)
    (framed : ∀ i < inp.tokens.size, (inp.tokenAt i).kind ≠ kind) :
    k = front.length + inp.tokens.size := by
  have less : k < long.tokens.size := lt_size_of_kind (token ▸ inside)
  rw [frames.size] at less
  by_contra other
  rcases Nat.lt_or_ge k front.length with before | from_front
  · have found := List.getElem?_eq_getElem before
    rw [Token.kind, frames.ahead found] at token
    exact others _ (List.getElem_mem before) token
  · obtain ⟨i, rfl⟩ := Nat.exists_eq_add_of_le from_front
    have inner : i < inp.tokens.size := by omega
    rw [Token.kind, ← frames.lexeme inner] at token
    exact framed i inner token

end Frames

end Input

-- ======================================================= expressions

/-- Runs that are the same, up to the end of the input. -/
def Parser.Simulation.withinSize (inp : Input) :
    Simulation True inp inp :=
  Congruence.simulation {
    rel := fun s s' => s = s' ∧ s.cursor ≤ inp.tokens.size
    cursor := fun h => by rw [h.1]
    implicits := fun h => by rw [h.1]
    past := by
      rintro s _ ⟨rfl, le⟩
      refine ⟨rfl, ?_⟩
      unfold Parser.past
      split
      · exact le
      next inside => exact lt_size_of_kind inside
    record := by
      rintro s _ ⟨rfl, le⟩ e
      exact ⟨rfl, le⟩
    declareFixities := by
      rintro s _ ⟨rfl, le⟩ entries
      exact ⟨rfl, le⟩
    define := by
      rintro s _ ⟨rfl, le⟩ name names
      exact ⟨rfl, le⟩
    rewind := by
      rintro s _ t _ ⟨rfl, le⟩ ⟨rfl, -⟩ - -
      exact ⟨rfl, le⟩ }

namespace Grammar

/-- Where the operators are the same, the rule runs alike. -/
def RunsAlike (p : Parser Term) : Prop :=
  ∀ {exact : Prop} {inp inp' : Input} {σ : Simulation exact inp inp'},
    (∀ {s s'}, σ.rel s s' →
      s.registry.fixities = s'.registry.fixities) →
    ∀ n, σ.Simulates n true (Term.likeness exact) p p

theorem expr_runsAlike : RunsAlike expr := expr_simulates

theorem atom_runsAlike : RunsAlike (atom expr) :=
  fun fixities n => atom_alike.simulates expr_steady expr_steady
    (expr_simulates fixities n)

variable {inp long : Input} {r : Registry} {p : Parser Term}
  {i j k n : Nat} {t : Term}

/-- No rule goes beyond the end of the input. -/
theorem RunsAlike.le_size (runs : RunsAlike p) (h : Reads inp r p i j t)
    (le : i ≤ inp.tokens.size) : j ≤ inp.tokens.size := by
  obtain ⟨s, u, ⟨rfl, -⟩, ⟨rfl, -⟩, run⟩ := h.run
  have both := runs (σ := Parser.Simulation.withinSize inp)
    (fun same => by rw [same.1]) (inp.remaining s + 1) s s ⟨rfl, le⟩
    ⟨Nat.le_succ _, fun _ => Nat.lt_succ_self _⟩
  rw [run] at both
  exact both.of_ok.2.2

/-- Where an input stands in a longer one, rules run alike. -/
theorem RunsAlike.shift (runs : RunsAlike p) (stands : inp.StandsAt long n)
    (r : Registry) (i : Nat) :
    Outcome.Matches (Term.likeness False) (fun _ _ => True)
      (fun s s' => s'.cursor = n + s.cursor ∧ s.registry = s'.registry)
      (p inp { cursor := i, registry := r })
      (p long { cursor := n + i, registry := r }) :=
  runs (σ := .shift stands) (fun same => by rw [same.2])
    (inp.remaining { cursor := i, registry := r } + 1) _ _ ⟨rfl, rfl⟩
    ⟨Nat.le_succ _, fun _ => Nat.lt_succ_self _⟩

theorem RunsAlike.carries (runs : RunsAlike p) (plain : Plain p)
    (stands : inp.StandsAt long n) (h : Reads inp r p i j t) :
    Carries long r p (n + i) (n + j) t := by
  obtain ⟨u, ⟨rfl, -⟩, run⟩ := h { cursor := i, registry := r } ⟨rfl, rfl⟩
  have both := runs.shift stands r i
  rw [run] at both
  obtain ⟨t', u', run', agree, cursor, -⟩ := both.ok_left
  have read := plain.reads run'
  rw [cursor] at read
  exact carries_of read agree.1.symm

theorem RunsAlike.carries_back (runs : RunsAlike p) (plain : Plain p)
    (stands : inp.StandsAt long n) (h : Reads long r p (n + i) k t) :
    ∃ j, k = n + j ∧ Carries inp r p i j t := by
  obtain ⟨u, ⟨rfl, -⟩, run⟩ := h { cursor := n + i, registry := r } ⟨rfl, rfl⟩
  have both := runs.shift stands r i
  rw [run] at both
  obtain ⟨t', u', run', agree, cursor, -⟩ := both.ok_right
  exact ⟨u'.cursor, cursor, carries_of (plain.reads run') agree.1⟩

end Grammar

-- ========================================================== frames

namespace Input.Frames

open DepLang.Grammar

variable {inp long : Input} {front : List Lexeme} {m : Mark}
  {r : Registry} {t : Term} (frames : long.Frames inp front m)
  (standard : inp.language = .standard)
  (free : ∀ e ∈ r.fixities,
    Language.standard.isReservedOperator e.symbol = false)
include frames standard free

/-- What is all of an input is an expression in its frame. -/
theorem carries (closing : isClosing (.ofMark m) = true)
    (h : Reads inp r expr 0 inp.tokens.size t) :
    Carries long r expr front.length
      (front.length + inp.tokens.size) t := by
  have behind : ((long.drop front.length).tokenAt inp.tokens.size).lexeme
      = .ofMark m := by
    rw [tokenAt_drop]
    exact frames.behind
  have stops : Stops r.fixities .binder
      ((long.drop front.length).tokenAt inp.tokens.size).lexeme := by
    rw [behind]
    exact stops_of_closing free closing
  obtain ⟨u, agree, read⟩ := carries_expr standard frames.sameBefore
    free rfl stops (Nat.le_refl _) stops.1 h
  obtain ⟨v, agree', read'⟩ := expr_runsAlike.carries plain_expr frames.standsAt
    read
  exact carries_of read' (agree'.trans agree)

/-- What is framed is all of an expression only if it is one alone. -/
theorem carries_back
    (h : Reads long r expr front.length
      (front.length + inp.tokens.size) t) :
    Carries inp r expr 0 inp.tokens.size t := by
  obtain ⟨j, same, u, agree, read⟩ :=
    expr_runsAlike.carries_back (i := 0) plain_expr frames.standsAt h
  obtain rfl : j = inp.tokens.size := by omega
  have ended : isClosing (inp.tokenAt inp.tokens.size).lexeme = true := by
    rw [tokenAt_of_size_le (Nat.le_refl _)]
    rfl
  have stops := stops_of_closing free ended
  have same : (long.drop front.length).language = .standard :=
    frames.language.symm.trans standard
  obtain ⟨v, agree', read'⟩ := carries_expr same frames.sameBefore.symm
    free rfl stops (Nat.le_refl _) stops.1 read
  exact carries_of read' (agree'.trans agree)

end Input.Frames

end DepLang
