/-
Reading backwards. A rule that declares nothing finds what it finds
because of where it starts and under which registry, so that one run
says what all runs from there do (`Plain.reads`). This turns the rules
for `Reads` around: a sequence that reads has read its first part up to
some cursor and goes on from there (`Plain.step`), a choice has read one
of its alternatives, and a repetition is empty or has read once more, so
it has read its values one behind another (`ReadsAll`).

The state in the middle of a sequence is kept, and only what has been
read so far is said without it. So a rule is taken apart line by line,
by the run that is left of it.
-/
import DepLang.Proofs.Grammar.Inside
import DepLang.Proofs.Grammar.Looks
import DepLang.Proofs.Grammar.Reads

namespace DepLang.Parser

open DepLang.Grammar

variable {α β : Type} {inp : Input} {r : Registry} {p : Parser α}
  {i j : Nat} {a : α}

/-- A parser that is alike to itself and declares nothing. -/
structure Plain (p : Parser α) : Prop where
  alike : SelfAlike p
  quiet : Quiet p

/-- A rule of expressions. -/
theorem plain_of (alike : SelfAlike p) (stays : Stays expr False p) :
    Plain p :=
  ⟨alike, quiet_of_stays stays⟩

theorem plain_pure (a : α) : Plain (pure a : Parser α) where
  alike := .pure rfl
  quiet := by
    intro inp s b t run
    cases run
    rfl

theorem Plain.bind {f : α → Parser β} (plain : Plain p)
    (next : ∀ a, Plain (f a)) : Plain (p >>= f) where
  alike := .bind plain.alike fun a a' same => by
    cases same
    exact (next a).alike
  quiet := by
    intro inp s b t run
    obtain ⟨a, u, first, rest⟩ := bind_ok run
    exact ((next a).quiet _ _ _ _ rest).trans (plain.quiet _ _ _ _ first)

/-- What one run finds, all runs from its cursor and registry find. -/
theorem Plain.reads (plain : Plain p) {s t : State}
    (run : p inp s = .ok a t) :
    Reads inp s.registry p s.cursor t.cursor a := by
  rintro s' ⟨cursor, registry⟩
  have looks : s.LooksLike s' :=
    ⟨cursor.symm, by rw [registry], by rw [registry]⟩
  obtain ⟨t', run', state⟩ := plain.alike.ok looks run
  refine ⟨t', ⟨state.cursor.symm, ?_⟩, run'⟩
  rw [plain.quiet _ _ _ _ run', registry]

/-- What is read is read by some run. -/
theorem Reads.run (h : Reads inp r p i j a) :
    ∃ s t, At i r s ∧ At j r t ∧ p inp s = .ok a t := by
  have start : At i r { cursor := i, registry := r } := ⟨rfl, rfl⟩
  obtain ⟨t, stop, run⟩ := h _ start
  exact ⟨_, t, start, stop, run⟩

theorem Plain.reads_at (plain : Plain p) {s t : State} (start : At i r s)
    (run : p inp s = .ok a t) :
    Reads inp r p i t.cursor a ∧ At t.cursor r t := by
  obtain ⟨rfl, rfl⟩ := start
  exact ⟨plain.reads run, rfl, plain.quiet _ _ _ _ run⟩

/-- The first part of a sequence is read, and the rest of the run goes
on from where it ends. -/
theorem Plain.step (plain : Plain p) {f : α → Parser β} {b : β}
    {s t : State} (start : At i r s) (run : (p >>= f) inp s = .ok b t) :
    ∃ a k u, Reads inp r p i k a ∧ At k r u ∧ f a inp u = .ok b t := by
  obtain ⟨a, u, first, rest⟩ := bind_ok run
  obtain ⟨reads, at_u⟩ := plain.reads_at start first
  exact ⟨a, u.cursor, u, reads, at_u, rest⟩

/-- Where nothing is left to read, the run ends. -/
theorem reads_pure_cases {b : α} {s t : State} (start : At i r s)
    (stop : At j r t) (run : (pure a : Parser α) inp s = .ok b t) :
    b = a ∧ j = i := by
  cases run
  exact ⟨rfl, stop.1.symm.trans start.1⟩

/-- No parser reads backwards. -/
theorem Plain.le (plain : Plain p) (h : Reads inp r p i j a) : i ≤ j := by
  obtain ⟨s, t, ⟨rfl, -⟩, ⟨rfl, -⟩, run⟩ := h.run
  have follows := plain.alike.steady inp s
  rw [run] at follows
  exact follows.cursor_le

/-- Rules read something. -/
theorem Reads.lt {R : Likeness α} (h : Reads inp r p i j a)
    (alike : Alike True expr expr false true R p p) :
    i < j ∧ i < inp.tokens.size := by
  obtain ⟨s, t, ⟨rfl, -⟩, ⟨rfl, -⟩, run⟩ := h.run
  have less := alike.remaining_lt expr_steady expr_steady run rfl rfl
  unfold Input.remaining at less
  omega

/-- What is read from one place is one thing. -/
theorem Reads.unique {k : Nat} {b : α} (h : Reads inp r p i j a)
    (h' : Reads inp r p i k b) : a = b ∧ j = k := by
  obtain ⟨s, t, start, stop, run⟩ := h.run
  obtain ⟨u, stop', run'⟩ := h' s start
  rw [run] at run'
  cases run'
  exact ⟨rfl, stop.1.symm.trans stop'.1⟩

-- =========================================================== tokens

theorem plain_acceptIf (test : Language → Lexeme → Bool)
    (expected : String) : Plain (acceptIf test expected) where
  alike := (Alike.acceptIf (.inl rfl)).same
  quiet := by
    intro inp s t u run
    unfold acceptIf accept at run
    split at run
    · cases run
      exact registry_past inp s
    · cases run

/-- A token that was read has passed the test, and is passed. -/
theorem reads_acceptIf_cases {test : Language → Lexeme → Bool}
    {expected : String} {t : Token}
    (h : Reads inp r (acceptIf test expected) i j t) :
    test inp.language (inp.tokenAt i).lexeme = true ∧ t = inp.tokenAt i
      ∧ ((inp.tokenAt i).kind ≠ .eof → j = i + 1) := by
  cases passes : test inp.language (inp.tokenAt i).lexeme with
  | false => exact absurd (refuses_acceptIf rfl passes) h.not_refuses
  | true =>
      by_cases ended : (inp.tokenAt i).kind = .eof
      · obtain ⟨s, u, ⟨rfl, -⟩, -, run⟩ := h.run
        unfold acceptIf accept at run
        simp only [passes, if_true] at run
        cases run
        exact ⟨rfl, rfl, fun other => absurd ended other⟩
      · obtain ⟨same, passed⟩ := h.unique (reads_acceptIf rfl ended passes)
        exact ⟨rfl, same, fun _ => passed⟩

theorem reads_expect_cases {kind : TokenKind} {t : Token}
    (h : Reads inp r (expect kind) i j t) (inside : kind ≠ .eof) :
    (inp.tokenAt i).kind = kind ∧ t = inp.tokenAt i ∧ j = i + 1 := by
  obtain ⟨passes, same, passed⟩ := reads_acceptIf_cases h
  have token : (inp.tokenAt i).kind = kind := eq_of_beq passes
  exact ⟨token, same, passed (token ▸ inside)⟩

theorem plain_expect (kind : TokenKind) : Plain (expect kind) :=
  plain_acceptIf _ _

theorem plain_mark (m : Mark) : Plain (mark m) := plain_expect (.mark m)

theorem reads_mark_cases {m : Mark} {t : Token}
    (h : Reads inp r (mark m) i j t) :
    (inp.tokenAt i).kind = .mark m ∧ j = i + 1 := by
  obtain ⟨token, -, passed⟩ := reads_expect_cases h (by simp)
  exact ⟨token, passed⟩

theorem plain_symbol (op : String) : Plain (symbol op) :=
  plain_acceptIf _ _

theorem reads_symbol_cases {op : String} {t : Token}
    (h : Reads inp r (symbol op) i j t) :
    (inp.tokenAt i).lexeme = .operator op ∧ j = i + 1 := by
  obtain ⟨passes, -, passed⟩ := reads_acceptIf_cases h
  have token : (inp.tokenAt i).lexeme = .operator op := eq_of_beq passes
  refine ⟨token, passed ?_⟩
  rw [Token.kind, token]
  simp [Lexeme.kind]

theorem plain_reserved (word : String) : Plain (reserved word) :=
  plain_acceptIf _ _

theorem reads_reserved_cases {word : String} {t : Token}
    (h : Reads inp r (reserved word) i j t) :
    (inp.tokenAt i).lexeme = .reserved word ∧ j = i + 1 := by
  obtain ⟨passes, -, passed⟩ := reads_acceptIf_cases h
  have token : (inp.tokenAt i).lexeme = .reserved word :=
    eq_of_beq passes
  refine ⟨token, passed ?_⟩
  rw [Token.kind, token]
  simp [Lexeme.kind]

theorem plain_operator : Plain operator := plain_acceptIf _ _

theorem reads_operator_cases {t : Token}
    (h : Reads inp r operator i j t) :
    (∃ op, (inp.tokenAt i).lexeme = .operator op ∧ t.text = op
        ∧ inp.language.isReservedOperator op = false)
      ∧ j = i + 1 := by
  obtain ⟨passes, same, passed⟩ := reads_acceptIf_cases h
  cases l : (inp.tokenAt i).lexeme with
  | operator op =>
      rw [l, isFreeOperator, Bool.not_eq_true'] at passes
      refine ⟨⟨op, rfl, ?_, passes⟩, passed ?_⟩
      · rw [same, Token.text, l]
        rfl
      · rw [Token.kind, l]
        simp [Lexeme.kind]
  | _ =>
      rw [l] at passes
      cases passes

-- ===================================================== combinators

/-- A sequence of rules is read one after the other. -/
theorem reads_bind_cases {f : α → Parser β} {b : β} (plain : Plain p)
    (next : ∀ a, Plain (f a)) (h : Reads inp r (p >>= f) i j b) :
    ∃ a k, Reads inp r p i k a ∧ Reads inp r (f a) k j b := by
  obtain ⟨s, t, start, ⟨rfl, -⟩, run⟩ := h.run
  obtain ⟨a, k, u, first, at_u, run⟩ := plain.step start run
  exact ⟨a, k, first, ((next a).reads_at at_u run).1⟩

theorem reads_choice_cases {ps : List (Parser α)}
    (plain : ∀ p ∈ ps, Plain p) (h : Reads inp r (choice ps) i j a) :
    ∃ p ∈ ps, Reads inp r p i j a := by
  obtain ⟨s, t, start, ⟨rfl, -⟩, run⟩ := h.run
  obtain ⟨p, hp, s', cursor, registry, found⟩ :=
    choice_ok (fun p hp => (plain p hp).alike.steady) run
  have again : At i r s' := ⟨cursor.trans start.1, registry.trans start.2⟩
  exact ⟨p, hp, ((plain p hp).reads_at again found).1⟩

theorem reads_optional_cases {default : α} (plain : Plain p)
    (h : Reads inp r (optional p default) i j a) :
    Reads inp r p i j a ∨ a = default ∧ j = i := by
  obtain ⟨s, t, start, ⟨rfl, -⟩, run⟩ := h.run
  rcases optional_ok plain.alike.steady run with found | ⟨same, back, -⟩
  · exact .inl (plain.reads_at start found).1
  · exact .inr ⟨same, back.trans start.1⟩

theorem Plain.map {f : α → β} (plain : Plain p) : Plain (f <$> p) :=
  plain.bind fun a => plain_pure (f a)

theorem Plain.optional (plain : Plain p) (default : α) :
    Plain (optional p default) where
  alike := .optional plain.alike rfl
  quiet := by
    intro inp s b t run
    rcases optional_ok plain.alike.steady run with found | ⟨-, -, kept⟩
    · exact plain.quiet inp s b t found
    · exact kept

theorem Plain.many (plain : Plain p) : Plain (many p) where
  alike := (Alike.many plain.alike).sameList
  quiet := by
    intro inp s as t run
    have round := (plain.map (f := some)).optional none
    refine loop_keeps (fun u => u.registry = s.registry)
      (fun u a v run kept => ?_) run rfl
    exact (round.quiet inp u a v run).trans kept

/-- A repetition has run not at all, or once and then on. -/
theorem many_ok {R : Likeness α} {as : List α}
    (alike : Alike True expr expr false true R p p) {s t : State}
    (run : many p inp s = .ok as t) :
    (as = [] ∧ t.cursor = s.cursor ∧ t.registry = s.registry)
      ∨ ∃ a u rest, as = a :: rest ∧ p inp s = .ok a u
        ∧ many p inp u = .ok rest t := by
  have follows := (alike.steady expr_steady expr_steady).1 inp s
  rw [many_apply] at run
  cases first : p inp s with
  | ok a u =>
      rw [first] at run
      have less : inp.remaining u < inp.remaining s :=
        alike.remaining_lt expr_steady expr_steady first rfl rfl
      simp only [if_pos less] at run
      obtain ⟨rest, v, more, same⟩ := bind_ok run
      cases same
      exact .inr ⟨a, u, rest, rfl, rfl, more⟩
  | error e u =>
      rw [first] at run follows
      cases run
      exact .inl ⟨rfl, rfl, registry_rewind follows⟩
  | defect d u =>
      rw [first] at run
      cases run

/-- A repetition has read nothing, or something and then the rest. -/
theorem reads_many_cases {R : Likeness α} {as : List α} (plain : Plain p)
    (alike : Alike True expr expr false true R p p)
    (h : Reads inp r (many p) i j as) :
    (as = [] ∧ j = i) ∨ ∃ a k rest, as = a :: rest
      ∧ Reads inp r p i k a ∧ Reads inp r (many p) k j rest := by
  obtain ⟨s, t, start, ⟨rfl, -⟩, run⟩ := h.run
  rcases many_ok alike run with ⟨rfl, back, -⟩ | ⟨a, u, rest, rfl, run, more⟩
  · exact .inl ⟨rfl, back.trans start.1⟩
  · obtain ⟨read, at_u⟩ := plain.reads_at start run
    exact .inr ⟨a, u.cursor, rest, rfl, read,
      (plain.many.reads_at at_u more).1⟩

/-- Values that a parser reads one behind another, each from a token or
more. -/
inductive ReadsAll (inp : Input) (r : Registry) (p : Parser α) :
    Nat → Nat → List α → Prop
  | nil {i : Nat} : ReadsAll inp r p i i []
  | cons {i k j : Nat} {a : α} {as : List α}
      (first : Reads inp r p i k a) (less : i < k)
      (more : ReadsAll inp r p k j as) : ReadsAll inp r p i j (a :: as)

theorem ReadsAll.le {as : List α} (h : ReadsAll inp r p i j as) :
    i ≤ j := by
  induction h with
  | nil => exact Nat.le_refl _
  | cons _ less _ ih => exact Nat.le_trans (Nat.le_of_lt less) ih

theorem readsAll_of_many {R : Likeness α} {as : List α} (plain : Plain p)
    (alike : Alike True expr expr false true R p p)
    (h : Reads inp r (many p) i j as) : ReadsAll inp r p i j as := by
  induction as generalizing i with
  | nil =>
      rcases reads_many_cases plain alike h with
        ⟨-, rfl⟩ | ⟨_, _, _, more, -⟩
      · exact .nil
      · cases more
  | cons a as ih =>
      rcases reads_many_cases plain alike h with
        ⟨none, -⟩ | ⟨_, _, _, same, first, more⟩
      · cases none
      · cases same
        exact .cons first (first.lt alike).1 (ih more)

theorem Plain.many1 (plain : Plain p) : Plain (many1 p) :=
  plain.bind fun _ => plain.many.bind fun _ => plain_pure _

theorem reads_many1_cases {as : List α} (plain : Plain p)
    (h : Reads inp r (many1 p) i j as) :
    ∃ a k rest, as = a :: rest ∧ Reads inp r p i k a
      ∧ Reads inp r (many p) k j rest := by
  obtain ⟨s, t, start, stop, run⟩ := h.run
  obtain ⟨a, k, u, first, at_u, run⟩ := plain.step start run
  obtain ⟨rest, l, v, more, at_v, run⟩ := plain.many.step at_u run
  obtain ⟨rfl, rfl⟩ := reads_pure_cases at_v stop run
  exact ⟨a, k, rest, rfl, first, more⟩

theorem Plain.sepBy1 {separator : Parser β} (plain : Plain p)
    (separates : Plain separator) : Plain (sepBy1 p separator) :=
  plain.bind fun _ =>
    (separates.bind fun _ => plain).many.bind fun _ => plain_pure _

theorem reads_sepBy1_cases {separator : Parser β} {as : List α}
    (plain : Plain p) (separates : Plain separator)
    (h : Reads inp r (sepBy1 p separator) i j as) :
    ∃ a k rest, as = a :: rest ∧ Reads inp r p i k a
      ∧ Reads inp r (many (separator >>= fun _ => p)) k j rest := by
  obtain ⟨s, t, start, stop, run⟩ := h.run
  obtain ⟨a, k, u, first, at_u, run⟩ := plain.step start run
  obtain ⟨rest, l, v, more, at_v, run⟩ :=
    (separates.bind fun _ => plain).many.step at_u run
  obtain ⟨rfl, rfl⟩ := reads_pure_cases at_v stop run
  exact ⟨a, k, rest, rfl, first, more⟩

/-- A separator and a separated list go on with a list. -/
theorem reads_many_of_sepBy1 {separator : Parser β} {b : β} {as : List α}
    {k : Nat} (plain : Plain p) (separates : Plain separator)
    (inside : (inp.tokenAt i).kind ≠ .eof) (less : i < k)
    (between : Reads inp r separator i k b)
    (h : Reads inp r (sepBy1 p separator) k j as) :
    Reads inp r (many (separator >>= fun _ => p)) i j as := by
  obtain ⟨a, l, rest, rfl, first, more⟩ :=
    reads_sepBy1_cases plain separates h
  have le := plain.le first
  exact reads_many_cons inside (by omega) (between.bind first) more

end DepLang.Parser
