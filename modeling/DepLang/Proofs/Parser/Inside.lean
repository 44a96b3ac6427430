/-
Parsers that stay inside a declaration. They are put together from the
primitives and the combinators, as all rules are, but none of their
tokens is a semicolon, every choice has an alternative, and no failure
expects the same thing twice. Whatever is built this way from nested
expressions inherits properties from them, each by one induction over
the way it is built:

- it never stops with a defect (`Inside.sound`);
- unless it may declare, a run that finds something leaves the registry
  as it was (`Inside.quiet`);
- it reads nothing beyond the semicolon that ends the declaration, which
  is the subject of the file on fences;
- it fails with what came of the failures that it met, which is the
  subject of the file on blame.

`Alike` does not give these: it lets a parser declare, break off and
read any token, since its two sides do so together.

One switch says whether the token at the cursor is known to be none of
the semicolons, by a look at it; only then may it be read whatever it
is.
-/
import DepLang.Proofs.Parser.Follows

namespace DepLang.Parser

variable {α β : Type}

/-- Parsers built from nested expressions `e` that read no semicolon.
They change the registry only if they may declare. -/
inductive Inside (e : Parser Term) (declares : Prop) :
    {α : Type} → Bool → Parser α → Prop
  | pure {α : Type} {free : Bool} (a : α) :
      Inside e declares free (pure a)
  | bind {α β : Type} {free : Bool} {p : Parser α} {f : α → Parser β}
      (first : Inside e declares free p)
      (next : ∀ a, Inside e declares false (f a)) :
      Inside e declares free (p >>= f)
  | known {α : Type} {free : Bool} {p : Parser α}
      (of : Inside e declares false p) : Inside e declares free p
  | nested {free : Bool} : Inside e declares free e
  | look {α : Type} {free : Bool} (f : Token → α) :
      Inside e declares free (ask fun inp s => f (inp.tokenAt s.cursor))
  | seen {α β : Type} {free : Bool} {f : Token → Option α}
      {k : Option α → Parser β}
      (other : ∀ t, t.kind = .mark .semicolon → f t = none)
      (absent : Inside e declares free (k none))
      (present : ∀ a, Inside e declares true (k (some a))) :
      Inside e declares free
        ((ask fun inp s => f (inp.tokenAt s.cursor)) >>= k)
  | lastStop {free : Bool} : Inside e declares free lastStop
  | consult {α : Type} {free : Bool} (f : Registry → α) :
      Inside e declares free (ask fun _ s => f s.registry)
  | advance : Inside e declares true advance
  | accept {α : Type} {free : Bool} {read : Language → Token → Option α}
      {expected : String}
      (other : ∀ lang t, t.kind = .mark .semicolon → read lang t = none) :
      Inside e declares free (accept read expected)
  | failWith {α : Type} {free : Bool} (complaint : Option Complaint)
      {expected : List String} (distinct : expected.Nodup) :
      Inside e declares free (failWith complaint expected : Parser α)
  | declareFixities {free : Bool} (may : declares)
      (entries : List FixityEntry) :
      Inside e declares free (declareFixities entries)
  | define {free : Bool} (may : declares) (name : Name)
      (names : List Name) : Inside e declares free (define name names)
  | choice {α : Type} {free : Bool} {ps : List (Parser α)}
      (some : ps ≠ []) (each : ∀ p ∈ ps, Inside e declares free p) :
      Inside e declares free (choice ps)
  | optional {α : Type} {free : Bool} {p : Parser α}
      (body : Inside e declares free p) (a : α) :
      Inside e declares free (optional p a)
  | loop {α : Type} {free : Bool} {p : Parser (Option α)}
      (body : Inside e declares false p) :
      Inside e declares free (loop p)

namespace Inside

variable {e : Parser Term} {declares : Prop} {free : Bool}

-- ==================================================== reading tokens

theorem fail {expected : List String} (distinct : expected.Nodup) :
    Inside e declares free (Parser.fail expected : Parser α) :=
  .failWith none distinct

/-- A token that passes a test which semicolons fail. -/
theorem acceptIf {test : Language → Lexeme → Bool} {expected : String}
    (other : ∀ lang l, l.kind = .mark .semicolon → test lang l = false) :
    Inside e declares free (acceptIf test expected) := by
  refine .accept fun lang t semicolon => ?_
  rw [other lang t.lexeme semicolon]
  rfl

theorem expect {kind : TokenKind} (other : kind ≠ .mark .semicolon) :
    Inside e declares free (expect kind) :=
  acceptIf fun _ l semicolon => by
    rw [semicolon]
    exact beq_false_of_ne (Ne.symm other)

theorem mark (m : Mark) (other : m ≠ .semicolon := by decide) :
    Inside e declares free (mark m) :=
  expect fun same => other (TokenKind.mark.inj same)

theorem identifier : Inside e declares free identifier :=
  expect (by decide)

theorem reserved (word : String) : Inside e declares free (reserved word) :=
  acceptIf fun _ l semicolon => by cases l <;> simp_all [Lexeme.kind]

theorem symbol (op : String) : Inside e declares free (symbol op) :=
  acceptIf fun _ l semicolon => by cases l <;> simp_all [Lexeme.kind]

theorem operator : Inside e declares free operator :=
  acceptIf fun _ l semicolon => by
    cases l <;> simp_all [Lexeme.kind, isFreeOperator]

theorem natural : Inside e declares free natural := by
  refine .accept fun _ t semicolon => ?_
  have kind : t.lexeme.kind = .mark .semicolon := semicolon
  cases h : t.lexeme <;> simp_all [Lexeme.kind]

-- ======================================================= repetition

theorem map {p : Parser α} (h : Inside e declares free p) (f : α → β) :
    Inside e declares free (f <$> p) :=
  .bind h fun a => .pure (f a)

theorem many {p : Parser α} (h : Inside e declares false p) :
    Inside e declares free (many p) :=
  .loop (.optional (h.map some) none)

theorem many1 {p : Parser α} (h : Inside e declares false p) :
    Inside e declares free (many1 p) :=
  .bind (.known h) fun _ => .bind h.many fun _ => .pure _

theorem sepBy1 {p : Parser α} {q : Parser β}
    (h : Inside e declares false p) (separator : Inside e declares false q) :
    Inside e declares free (sepBy1 p q) :=
  .bind (.known h) fun _ =>
    .bind (many (.bind separator fun _ => h)) fun _ => .pure _

end Inside

section
variable {e : Parser Term} {declares : Prop} {free : Bool} {p : Parser α}

-- ======================================================= steadiness

theorem Inside.respects {Q : State → State → Prop} (lasting : Lasting Q)
    (he : Respects Q e) (h : Inside e declares free p) : Respects Q p := by
  induction h with
  | pure => exact fun _ s => lasting.refl s
  | bind _ _ first next => exact first.bind lasting next
  | known _ ih => exact ih
  | nested => exact he
  | look => exact respects_ask lasting _
  | @seen _ _ _ _ k _ _ _ absent present =>
      refine (respects_ask lasting _).bind lasting fun found => ?_
      cases found with
      | none => exact absent
      | some a => exact present a
  | lastStop => exact respects_ask lasting _
  | consult => exact respects_ask lasting _
  | advance => exact lasting.past
  | accept => exact respects_accept lasting _ _
  | failWith => exact respects_failWith lasting _ _
  | declareFixities => exact lasting.declareFixities _
  | define => exact lasting.define _ _
  | choice _ _ ih => exact respects_choice lasting ih
  | optional _ a ih => exact ih.optional lasting a
  | loop _ ih => exact ih.loop lasting

theorem Inside.steady (he : Steady e) (h : Inside e declares free p) :
    Steady p :=
  h.respects lasting_follows he

-- ====================================================== quietness

/-- Whatever the parser finds, it finds without a change to the
registry. -/
def Quiet (p : Parser α) : Prop :=
  ∀ inp s a t, p inp s = .ok a t → t.registry = s.registry

theorem registry_past (inp : Input) (s : State) :
    (past inp s).registry = s.registry := by
  unfold past
  split <;> rfl

/-- Without declarations, parsers are quiet as far as nested expressions
are: what a failed alternative did is undone. -/
theorem Inside.quiet (he : Steady e) (nested : Quiet e)
    (h : Inside e False free p) : Quiet p := by
  induction h with
  | pure | look | lastStop | consult =>
      intro inp s a t run
      cases run
      rfl
  | bind _ _ first next =>
      intro inp s b t run
      obtain ⟨a, u, begun, ended⟩ := bind_ok run
      exact (next a inp u b t ended).trans (first inp s a u begun)
  | known _ ih => exact ih
  | nested => exact nested
  | @seen _ _ _ f k _ _ _ absent present =>
      intro inp s b t run
      obtain ⟨a, u, begun, ended⟩ := bind_ok run
      cases begun
      cases found : f (inp.tokenAt s.cursor) with
      | none => exact absent inp s b t (found ▸ ended)
      | some a => exact present a inp s b t (found ▸ ended)
  | advance =>
      intro inp s a t run
      cases run
      exact registry_past inp s
  | accept =>
      intro inp s a t run
      unfold Parser.accept at run
      split at run
      · cases run
        exact registry_past inp s
      · cases run
  | failWith =>
      intro inp s a t run
      cases run
  | declareFixities may => exact may.elim
  | define may => exact may.elim
  | choice _ each ih =>
      intro inp s a t run
      obtain ⟨p, hp, s', -, registry, found⟩ :=
        choice_ok (fun p hp => (each p hp).steady he) run
      exact (ih p hp inp s' a t found).trans registry
  | optional body a ih =>
      intro inp s b t run
      rcases optional_ok (body.steady he) run with found | ⟨-, -, kept⟩
      · exact ih inp s b t found
      · exact kept
  | loop _ ih =>
      intro inp s as t run
      refine loop_keeps (fun u => u.registry = s.registry)
        (fun u a v round kept => ?_) run rfl
      exact (ih inp u a v round).trans kept

-- ======================================================= soundness

/-- No run over the input stops with a defect. -/
def Sound (inp : Input) (p : Parser α) : Prop :=
  ∀ s d t, p inp s ≠ .defect d t

section
variable {inp : Input}

theorem sound_ask (f : Input → State → α) : Sound inp (ask f) :=
  fun s d t run => by cases run

theorem sound_pure (a : α) : Sound inp (pure a) :=
  fun s d t run => by cases run

theorem sound_accept (read : Language → Token → Option α)
    (expected : String) : Sound inp (accept read expected) := by
  intro s d t run
  unfold accept at run
  split at run <;> cases run

theorem Sound.bind {f : α → Parser β} (hp : Sound inp p)
    (hf : ∀ a, Sound inp (f a)) : Sound inp (p >>= f) := by
  intro s d t run
  rw [bind_apply] at run
  cases first : p inp s with
  | ok a u =>
      rw [first] at run
      exact hf a u d t run
  | error e u =>
      rw [first] at run
      cases run
  | defect d' u => exact hp s d' u first

theorem Sound.attempt (hp : Sound inp p) : Sound inp (attempt p) := by
  intro s d t run
  unfold Parser.attempt at run
  cases body : p inp s with
  | ok a u | error e u =>
      rw [body] at run
      cases run
  | defect d' u => exact hp s d' u body

theorem Sound.attemptElse {k : Failure → Parser α} (hp : Sound inp p)
    (hk : ∀ e, Sound inp (k e)) : Sound inp (attemptElse p k) := by
  intro s d t run
  unfold Parser.attemptElse at run
  cases first : Parser.attempt p inp s with
  | ok a u =>
      rw [first] at run
      cases run
  | error e u =>
      rw [first] at run
      exact hk e u d t run
  | defect d' u => exact hp.attempt s d' u first

theorem sound_choiceAfter {ps : List (Parser α)}
    (hps : ∀ p ∈ ps, Sound inp p) :
    ∀ failed, Sound inp (choiceAfter failed ps) := by
  induction ps with
  | nil =>
      intro failed s d t run
      cases run
  | cons p ps ih =>
      intro failed
      have rest := ih fun q hq => hps q (List.mem_cons_of_mem p hq)
      rw [choiceAfter_cons]
      exact (hps p List.mem_cons_self).attemptElse fun e => rest _

theorem Sound.loop {p : Parser (Option α)} (hp : Sound inp p) :
    Sound inp (loop p) := by
  intro s d t run
  unfold Parser.loop at run
  fun_induction loopFrom p inp s with
  | case1 => cases run
  | case2 => cases run
  | case3 s a u _ _ _ ih => exact ih run
  | case4 => cases run
  | case5 => cases run
  | case6 s d' u broke => exact hp s d' u broke

/-- However parsers are put together, they are as sound as nested
expressions. -/
theorem Inside.sound (nested : Sound inp e)
    (h : Inside e declares free p) : Sound inp p := by
  induction h with
  | pure a => exact sound_pure a
  | bind _ _ first next => exact first.bind next
  | known _ ih => exact ih
  | nested => exact nested
  | look => exact sound_ask _
  | @seen _ _ _ f k _ _ _ absent present =>
      refine (sound_ask _).bind fun found => ?_
      cases found with
      | none => exact absent
      | some a => exact present a
  | lastStop => exact sound_ask _
  | consult => exact sound_ask _
  | advance => exact fun s d t run => by cases run
  | accept => exact sound_accept _ _
  | failWith => exact fun s d t run => by cases run
  | declareFixities => exact fun s d t run => by cases run
  | define => exact fun s d t run => by cases run
  | @choice _ _ ps some _ ih =>
      cases ps with
      | nil => exact absurd rfl some
      | cons p ps =>
          rw [choice_cons]
          exact (ih p List.mem_cons_self).attemptElse fun e =>
            sound_choiceAfter
              (fun q hq => ih q (List.mem_cons_of_mem p hq)) e
  | optional _ a ih =>
      rw [optional_eq]
      exact ih.attemptElse fun _ => sound_pure a
  | loop _ ih => exact ih.loop

end

end

end DepLang.Parser
