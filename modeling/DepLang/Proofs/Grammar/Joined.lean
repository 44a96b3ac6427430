/-
Items in front of more items. An input starts with another one if it has
the same tokens up to where the other one ends. Items that are read over
the shorter input are read over the longer one too, one by one, since
each ends with a semicolon that the longer input has as well, and no
rule looks beyond it; where the shorter input ends, the loop over the
longer one goes on with what follows (`moduleItems_joined`).

What follows is read as if it stood alone. An input that has the lexemes
of another one from some token on is read from there like the other one
from its start, up to spans (`Simulation.shift`).
-/
import DepLang.Proofs.Grammar.Inside

namespace DepLang

open DepLang.Parser

-- ========================================================== inputs

/-- The longer input has all tokens of the shorter one, none of which is
an end. -/
structure Input.Starts (inp long : Input) : Prop where
  language : inp.language = long.language
  token : ∀ i < inp.tokens.size, inp.tokenAt i = long.tokenAt i
  item : ∀ i < inp.tokens.size, (inp.tokenAt i).kind ≠ .eof

/-- States at one token of both inputs, with one registry. -/
structure State.Level (inp : Input) (s s' : State) : Prop where
  cursor : s.cursor = s'.cursor
  le : s.cursor ≤ inp.tokens.size
  registry : s.registry = s'.registry

namespace Grammar

variable {inp long : Input} {s s' t : State}

-- ============================================================ items

/-- An item reads a token. -/
theorem remaining_lt_of_item {d : Decl} (h : item inp s = .ok d t) :
    inp.remaining t < inp.remaining s := by
  have alike : Alike True expr expr false true (.upTo True Decl.erase)
      item item := item_alike
  exact alike.remaining_lt expr_steady expr_steady h rfl rfl

/-- An item reads the same over the longer input. -/
theorem item_joined (starts : inp.Starts long) (level : s.Level inp s')
    {d : Decl} (run : item inp s = .ok d t) :
    ∃ t', item long s' = .ok d t' ∧ t.Level inp t' := by
  obtain ⟨d₀, u, declared, run⟩ := bind_ok run
  obtain ⟨_, v, ended, run⟩ := bind_ok run
  cases run
  obtain ⟨semicolon, rfl⟩ := mark_ok ended
  have room : u.cursor < inp.tokens.size := lt_size_of_kind fun eof => by
    rw [semicolon] at eof
    cases eof
  have fence : inp.Fence long u.cursor :=
    { language := starts.language
      token := fun i le => starts.token i (Nat.lt_of_le_of_lt le room)
      semicolon }
  have followed := steady_of_stays declaration_inside inp s
  rw [declared] at followed
  have beside : s.Beside u.cursor s' :=
    ⟨level.cursor, followed.cursor_le, level.registry⟩
  have inside : Inside expr True false declaration := declaration_inside
  have both := inside.fenced fence expr_steady (expr_fenced fence) s s'
    beside (knows_nothing inp s)
  rw [declared] at both
  obtain ⟨d', u', run', same, after⟩ := both.ok_left
  cases same
  have token : long.tokenAt u'.cursor = inp.tokenAt u.cursor := by
    rw [fence.token _ (Nat.le_refl _), after.cursor]
  have semicolon' : (long.tokenAt u'.cursor).kind = .mark .semicolon := by
    rw [token, semicolon]
  have registry : (past long u').registry = (past inp u).registry := by
    rw [registry_past, registry_past, after.registry]
  refine ⟨past long u', ?_, ?_, ?_, registry.symm⟩
  · rw [item, bind_apply, run']
    show (mark .semicolon >>= _) long u' = _
    rw [bind_apply, mark_of_kind semicolon']
    show Outcome.ok (d₀.mapTerms (past long u').registry.supply) _ = _
    rw [registry]
  · unfold past
    rw [token, semicolon]
    exact congrArg (· + 1) after.cursor
  · unfold past
    rw [semicolon]
    exact room

-- ============================================================ loops

theorem item?_apply (inp : Input) (s : State) :
    item? inp s = if (inp.tokenAt s.cursor).kind = .eof then .ok none s
      else (some <$> item) inp s := by
  show (if ((inp.tokenAt s.cursor).kind == TokenKind.eof) = true
    then pure none else some <$> item : Parser (Option Decl)) inp s = _
  simp only [beq_iff_eq]
  split <;> rfl

theorem item?_ok_none (h : item? inp s = .ok none t) :
    (inp.tokenAt s.cursor).kind = .eof ∧ t = s := by
  rw [item?_apply] at h
  split at h
  next ended =>
      cases h
      exact ⟨ended, rfl⟩
  next =>
      obtain ⟨d, u, -, found⟩ := bind_ok h
      cases found

theorem item?_ok_some {d : Decl} (h : item? inp s = .ok (some d) t) :
    (inp.tokenAt s.cursor).kind ≠ .eof ∧ item inp s = .ok d t := by
  rw [item?_apply] at h
  split at h
  next => cases h
  next more =>
      obtain ⟨d', u, read, found⟩ := bind_ok h
      cases found
      exact ⟨more, read⟩

/-- Before the end, the loop over items reads a module. -/
theorem loop_item?_eq (h : (inp.tokenAt s.cursor).kind ≠ .eof) :
    loop item? inp s = moduleItems inp s := by
  rw [loop_apply, item?_apply, if_neg h, map_apply, moduleItems, bind_apply]
  cases run : item inp s with
  | ok d t =>
      have less := remaining_lt_of_item run
      exact if_pos less
  | error e t => rfl
  | defect d t => rfl

/-- A module by its first item, if the loop after it goes on elsewhere
after some more. -/
theorem moduleItems_of_item {d : Decl} {ds : List Decl} {u : State}
    (read : item inp s = .ok d u)
    (goes : loop item? inp u = ((ds ++ ·) <$> loop item?) inp t) :
    moduleItems inp s = ((d :: ds ++ ·) <$> loop item?) inp t := by
  rw [moduleItems, bind_apply, read]
  show (loop item? >>= _) inp u = _
  rw [bind_apply, goes, map_apply, map_apply]
  cases loop item? inp t <;> rfl

/-- A loop over items that comes to the end of the shorter input goes on
from there over the longer one. -/
theorem loop_item?_joined (starts : inp.Starts long) {ds : List Decl}
    (run : loop item? inp s = .ok ds t) (level : s.Level inp s') :
    ∃ t', t.Level inp t' ∧ t.cursor = inp.tokens.size
      ∧ loop item? long s' = ((ds ++ ·) <$> loop item?) long t' := by
  replace run := rounds_of_loop run
  induction run generalizing s' with
  | @none s t round =>
      obtain ⟨ended, rfl⟩ := item?_ok_none round
      have last : t.cursor = inp.tokens.size := by
        by_contra before
        have le := level.le
        exact starts.item t.cursor (by omega) ended
      refine ⟨s', level, last, ?_⟩
      rw [map_apply]
      cases loop item? long s' <;> rfl
  | last round stuck =>
      exact absurd (remaining_lt_of_item (item?_ok_some round).2) stuck
  | @more s u t d ds round less rest ih =>
      obtain ⟨more, read⟩ := item?_ok_some round
      have token := starts.token s.cursor (lt_size_of_kind more)
      obtain ⟨u', read', level'⟩ := item_joined starts level read
      obtain ⟨t', end_, last, goes⟩ := ih level'
      refine ⟨t', end_, last, ?_⟩
      rw [token, level.cursor] at more
      rw [loop_item?_eq more]
      exact moduleItems_of_item read' goes

/-- A module over the shorter input is the front of one over the longer
input. -/
theorem moduleItems_joined (starts : inp.Starts long) {ds : List Decl}
    (run : moduleItems inp s = .ok ds t) (level : s.Level inp s') :
    ∃ t', t.Level inp t' ∧ t.cursor = inp.tokens.size
      ∧ moduleItems long s' = ((ds ++ ·) <$> loop item?) long t' := by
  obtain ⟨first, u, begun, run⟩ := bind_ok run
  obtain ⟨rest, v, others, run⟩ := bind_ok run
  cases run
  obtain ⟨u', begun', level'⟩ := item_joined starts level begun
  obtain ⟨t', end_, last, goes⟩ := loop_item?_joined starts others level'
  exact ⟨t', end_, last, moduleItems_of_item begun' goes⟩

end Grammar

-- ==================================================== what follows

/-- Up to spans, the longer input is the other one from its token `n`
on. -/
structure Input.StandsAt (inp long : Input) (n : Nat) : Prop where
  language : inp.language = long.language
  size : long.tokens.size = n + inp.tokens.size
  lexeme : ∀ i, (inp.tokenAt i).lexeme = (long.tokenAt (n + i)).lexeme

theorem Input.StandsAt.remaining {inp long : Input} {n : Nat}
    (stands : inp.StandsAt long n) {s s' : State}
    (cursor : s'.cursor = n + s.cursor) :
    long.remaining s' = inp.remaining s := by
  unfold Input.remaining
  rw [cursor, stands.size, Nat.add_sub_add_left]

/-- Runs over an input and over where it stands in a longer one, with
one registry. -/
def Parser.Simulation.shift {inp long : Input} {n : Nat}
    (stands : inp.StandsAt long n) : Simulation False inp long where
  rel s s' := s'.cursor = n + s.cursor ∧ s.registry = s'.registry
  blame _ _ := True
  language := stands.language
  token := by
    rintro s s' ⟨cursor, -⟩ k
    refine ⟨?_, False.elim⟩
    rw [cursor, stands.lexeme, Nat.add_assoc]
  lastStop := fun _ => False.elim
  implicits := by
    rintro s s' ⟨-, registry⟩
    rw [registry]
  past := by
    rintro s s' ⟨cursor, registry⟩
    have kind : (inp.tokenAt s.cursor).kind
        = (long.tokenAt s'.cursor).kind := by
      rw [Token.kind, Token.kind, cursor, stands.lexeme]
    unfold Parser.past
    rw [kind]
    split
    · exact ⟨cursor, registry⟩
    · exact ⟨congrArg (· + 1) cursor, registry⟩
  failure _ _ _ := trivial
  record same _ := same
  merge _ _ := trivial
  declareFixities := by
    rintro s s' ⟨cursor, registry⟩ entries
    exact ⟨cursor, congrArg (·.addFixities entries) registry⟩
  define := by
    rintro s s' ⟨cursor, registry⟩ name names
    exact ⟨cursor, congrArg (·.define name names) registry⟩
  rewind := by
    rintro s s' t t' ⟨cursor, registry⟩ ⟨-, registry'⟩ - -
    refine ⟨cursor, ?_⟩
    show t.registry.restore s.registry.snapshot
      = t'.registry.restore s'.registry.snapshot
    rw [registry, registry']
  progress := by
    rintro s s' t t' ⟨cursor, -⟩ ⟨cursor', -⟩ - -
    rw [stands.remaining cursor, stands.remaining cursor']

namespace Grammar

/-- Outcomes that find the same up to spans, with one registry. -/
abbrev ComesTo (n : Nat) : Outcome (List Decl) → Outcome (List Decl) → Prop :=
  Outcome.Matches (.list (.upTo False Decl.erase)) (fun _ _ => True)
    fun s s' => s'.cursor = n + s.cursor ∧ s.registry = s'.registry

/-- A module over joined inputs is one over the first input, and then,
from the registry that it leaves, one over the second, unless that is
empty. -/
theorem moduleItems_append {first second whole : Input}
    (starts : first.Starts whole)
    (stands : second.StandsAt whole first.tokens.size)
    (some : (second.tokenAt 0).kind ≠ .eof) {r : Registry}
    {ds : List Decl} {t : State}
    (run : moduleItems first { registry := r } = .ok ds t) :
    ∃ rest, ComesTo first.tokens.size
        (moduleItems second { registry := t.registry }) rest
      ∧ moduleItems whole { registry := r }
        = match rest with
          | .ok es u => .ok (ds ++ es) u
          | .error e u => .error e u
          | .defect d u => .defect d u := by
  obtain ⟨t', level, last, goes⟩ :=
    moduleItems_joined starts run ⟨rfl, Nat.zero_le _, rfl⟩
  rw [level.cursor] at last
  have more : (whole.tokenAt t'.cursor).kind ≠ .eof := by
    rw [Token.kind, last, ← Nat.add_zero first.tokens.size,
      ← stands.lexeme 0]
    exact some
  have alike : Alike False expr expr false true
      (.list (.upTo False Decl.erase)) moduleItems moduleItems :=
    moduleItems_alike
  have both := alike.simulates expr_steady expr_steady
    (expr_simulates (σ := .shift stands)
      (fun h => congrArg Registry.fixities h.2) _)
    { registry := t.registry } t' ⟨last, level.registry⟩
    ⟨Nat.le_refl _, fun h => by cases h⟩
  refine ⟨moduleItems whole t', both, ?_⟩
  rw [goes, map_apply, loop_item?_eq more]
  cases moduleItems whole t' <;> rfl

end Grammar

end DepLang
