/-
What every run does to the state, however it ends. The cursor never
goes back over the start of a run, and the registry grows by
declarations that can be undone: no restore inside the run, however
deeply it is nested, takes the journal below where the run found it.
That makes an attempt that fails leave exactly the cursor and the
registry it was started with (`attempt_error`).

A parser that is alike to another and reads a token on its way to a
value leaves less of the input than it found (`Alike.remaining_lt`).
-/
import DepLang.Proofs.Parser.Alike
import DepLang.Proofs.Registry.Extends

namespace DepLang

-- ========================================================== states

/-- The state in which a run ends. -/
def Outcome.state {α : Type} : Outcome α → State
  | .ok _ s | .error _ s | .defect _ s => s

/-- A state that a run from another one can end in. -/
structure State.Follows (t s : State) : Prop where
  cursor_le : s.cursor ≤ t.cursor
  registry_extends : t.registry.Extends s.registry

theorem State.Follows.refl (s : State) : s.Follows s where
  cursor_le := Nat.le_refl _
  registry_extends := .refl _

theorem State.Follows.trans {u t s : State} (later : u.Follows t)
    (earlier : t.Follows s) : u.Follows s where
  cursor_le := Nat.le_trans earlier.cursor_le later.cursor_le
  registry_extends :=
    later.registry_extends.trans earlier.registry_extends

/-- No run leaves more of the input than it found. -/
theorem State.Follows.remaining_le {t s : State} (h : t.Follows s)
    (inp : Input) : inp.remaining t ≤ inp.remaining s :=
  Nat.sub_le_sub_left h.cursor_le _

namespace Parser

variable {α β : Type}

-- ========================================== running the combinators

/-- Runs a parser, and if it fails takes back what it did and goes on
with the failure. All alternatives are of this form. -/
def attemptElse (p : Parser α) (otherwise : Failure → Parser α) :
    Parser α := fun inp s =>
  match attempt p inp s with
  | .ok a t => .ok a t
  | .error e t => otherwise e inp t
  | .defect d t => .defect d t

theorem choice_cons (p : Parser α) (ps : List (Parser α)) :
    choice (p :: ps) = attemptElse p fun e => choiceAfter e ps := by
  funext inp s
  simp only [choice, attemptElse]
  cases attempt p inp s <;> rfl

theorem choiceAfter_cons (failed : Failure) (p : Parser α)
    (ps : List (Parser α)) :
    choiceAfter failed (p :: ps)
      = attemptElse p fun e => choiceAfter (failed.merge e) ps := by
  funext inp s
  simp only [choiceAfter, attemptElse]
  cases attempt p inp s <;> rfl

theorem optional_eq (p : Parser α) (a : α) :
    optional p a = attemptElse p fun _ => pure a := by
  funext inp s
  simp only [optional, attemptElse]
  cases attempt p inp s <;> rfl

/-- One round of a loop: the next value, and, if it cost a token, the
values after it. -/
theorem loopFrom_apply (next : Parser (Option α)) (inp : Input)
    (s : State) :
    loopFrom next inp s =
      match next inp s with
      | .ok none t => .ok [] t
      | .ok (some a) t =>
        if inp.remaining t < inp.remaining s then
          match loopFrom next inp t with
          | .ok as u => .ok (a :: as) u
          | outcome => outcome
        else .ok [a] t
      | .error e t => .error e t
      | .defect d t => .defect d t :=
  (loopFrom.eq_def next inp s).trans rfl

/-- The same round, with the values after it as a run of the loop. -/
theorem loop_apply (next : Parser (Option α)) (inp : Input) (s : State) :
    loop next inp s =
      match next inp s with
      | .ok none t => .ok [] t
      | .ok (some a) t =>
        if inp.remaining t < inp.remaining s then
          ((a :: ·) <$> loop next) inp t
        else .ok [a] t
      | .error e t => .error e t
      | .defect d t => .defect d t := by
  refine (loopFrom_apply next inp s).trans ?_
  cases next inp s with
  | ok found t =>
      cases found with
      | none => rfl
      | some a =>
          refine if_congr Iff.rfl ?_ rfl
          rw [map_apply]
          unfold loop
          cases loopFrom next inp t <;> rfl
  | error | defect => rfl

/-- One run of a repetition, and, if it cost a token, those after it. A
run that fails is taken back. -/
theorem many_apply (p : Parser α) (inp : Input) (s : State) :
    many p inp s =
      match p inp s with
      | .ok a t =>
        if inp.remaining t < inp.remaining s then
          ((a :: ·) <$> many p) inp t
        else .ok [a] t
      | .error _ t => .ok [] (rewind s t)
      | .defect d t => .defect d t := by
  refine (loop_apply (optional (some <$> p) none) inp s).trans ?_
  unfold optional attempt
  rw [map_apply]
  cases p inp s <;> rfl

-- ========================================================= rewinding

/-- Rewinding a run brings back the registry it was started with. -/
theorem registry_rewind {t s : State} (h : t.Follows s) :
    (rewind s t).registry = s.registry :=
  h.registry_extends.restore_eq

theorem follows_rewind {t s : State} (h : t.Follows s) :
    (rewind s t).Follows s where
  cursor_le := Nat.le_refl _
  registry_extends := by
    rw [registry_rewind h]
    exact .refl _

-- ============================================== what a run respects

theorem follows_past (inp : Input) (s : State) :
    (past inp s).Follows s := by
  unfold past
  split
  · exact .refl s
  · exact ⟨Nat.le_succ _, .refl _⟩

/-- Relations of the end of a run to its start that hold step by step,
and still hold once a failed run has been taken back. -/
structure Lasting (Q : State → State → Prop) : Prop where
  refl (s : State) : Q s s
  trans {u t s : State} : Q u t → Q t s → Q u s
  past (inp : Input) (s : State) : Q (past inp s) s
  record (s : State) (e : Failure) : Q (s.record e) s
  declareFixities (entries : List FixityEntry) (inp : Input) (s : State) :
    Q (declareFixities entries inp s).state s
  define (name : Name) (names : List Name) (inp : Input) (s : State) :
    Q (define name names inp s).state s
  rewind {t s : State} : Q t s → Q (rewind s t) s

/-- Every run of the parser ends in a state related to its start. -/
def Respects (Q : State → State → Prop) (p : Parser α) : Prop :=
  ∀ inp s, Q (p inp s).state s

section
variable {Q : State → State → Prop} (lasting : Lasting Q)
include lasting

theorem respects_ask (f : Input → State → α) : Respects Q (ask f) :=
  fun _ s => lasting.refl s

theorem respects_failWith (complaint : Option Complaint)
    (expected : List String) :
    Respects Q (failWith complaint expected : Parser α) :=
  fun _ s => lasting.record s _

theorem respects_accept (read : Language → Token → Option α)
    (expected : String) : Respects Q (accept read expected) := by
  intro inp s
  unfold accept
  split
  · exact lasting.past inp s
  · exact respects_failWith lasting none [expected] inp s

theorem Respects.bind {p : Parser α} {f : α → Parser β}
    (hp : Respects Q p) (hf : ∀ a, Respects Q (f a)) :
    Respects Q (p >>= f) := by
  intro inp s
  have first := hp inp s
  rw [bind_apply]
  cases run : p inp s with
  | ok a t =>
      rw [run] at first
      exact lasting.trans (hf a inp t) first
  | error e t | defect d t =>
      rw [run] at first
      exact first

theorem Respects.attempt {p : Parser α} (hp : Respects Q p) :
    Respects Q (attempt p) := by
  intro inp s
  have body := hp inp s
  unfold Parser.attempt
  cases run : p inp s with
  | ok a t =>
      rw [run] at body
      exact body
  | error e t =>
      rw [run] at body
      exact lasting.rewind body
  | defect d t =>
      rw [run] at body
      exact body

theorem Respects.attemptElse {p : Parser α} (hp : Respects Q p)
    {otherwise : Failure → Parser α}
    (ho : ∀ e, Respects Q (otherwise e)) :
    Respects Q (attemptElse p otherwise) := by
  intro inp s
  have first := hp.attempt lasting inp s
  unfold Parser.attemptElse
  cases run : Parser.attempt p inp s with
  | ok a t =>
      rw [run] at first
      exact first
  | error e t =>
      rw [run] at first
      exact lasting.trans (ho e inp t) first
  | defect d t =>
      rw [run] at first
      exact first

theorem respects_choiceAfter {ps : List (Parser α)}
    (hps : ∀ p ∈ ps, Respects Q p) :
    ∀ failed, Respects Q (choiceAfter failed ps) := by
  induction ps with
  | nil => exact fun _ _ s => lasting.refl s
  | cons p ps ih =>
      intro failed
      have rest := ih fun q hq => hps q (List.mem_cons_of_mem p hq)
      rw [choiceAfter_cons]
      exact (hps p List.mem_cons_self).attemptElse lasting fun e => rest _

theorem respects_choice {ps : List (Parser α)}
    (hps : ∀ p ∈ ps, Respects Q p) : Respects Q (choice ps) := by
  cases ps with
  | nil => exact fun _ s => lasting.refl s
  | cons p ps =>
      rw [choice_cons]
      exact (hps p List.mem_cons_self).attemptElse lasting fun e =>
        respects_choiceAfter lasting
          (fun q hq => hps q (List.mem_cons_of_mem p hq)) e

theorem Respects.optional {p : Parser α} (hp : Respects Q p) (a : α) :
    Respects Q (optional p a) := by
  rw [optional_eq]
  exact hp.attemptElse lasting fun _ _ s => lasting.refl s

theorem Respects.loop {p : Parser (Option α)} (hp : Respects Q p) :
    Respects Q (loop p) := by
  intro inp s
  unfold Parser.loop
  fun_induction loopFrom p inp s with
  | case1 s t run =>
      have step := hp inp s
      rw [run] at step
      exact step
  | case2 s a t run _ as u rest ih =>
      have step := hp inp s
      rw [run] at step
      rw [rest] at ih
      exact lasting.trans ih step
  | case3 s a t run _ _ ih =>
      have step := hp inp s
      rw [run] at step
      exact lasting.trans ih step
  | case4 s a t run | case5 s e t run | case6 s d t run =>
      have step := hp inp s
      rw [run] at step
      exact step

end

-- ====================================================== steadiness

/-- Following is kept, since what a failed run declared can be
undone. -/
theorem lasting_follows : Lasting State.Follows where
  refl := .refl
  trans := .trans
  past := follows_past
  record _ _ := ⟨Nat.le_refl _, .refl _⟩
  declareFixities entries _ s :=
    ⟨Nat.le_refl _, s.registry.extends_addFixities entries⟩
  define name names _ s :=
    ⟨Nat.le_refl _, s.registry.extends_define name names⟩
  rewind := follows_rewind

/-- Every run of the parser ends in a state that follows its start. -/
def Steady (p : Parser α) : Prop :=
  ∀ inp s, (p inp s).state.Follows s

/-- Only the end of the input lies behind the tokens. -/
theorem lt_size_of_kind {inp : Input} {i : Nat}
    (h : (inp.tokenAt i).kind ≠ .eof) : i < inp.tokens.size := by
  by_contra outside
  refine h ?_
  unfold Input.tokenAt
  rw [Array.getElem?_eq_none (Nat.le_of_not_lt outside)]
  rfl

theorem lt_size_of_lexeme {inp : Input} {i : Nat} {l : Lexeme}
    (token : (inp.tokenAt i).lexeme = l) (inside : l.kind ≠ .eof) :
    i < inp.tokens.size :=
  lt_size_of_kind (by rwa [Token.kind, token])

/-- Reading a token leaves less of the input. -/
theorem remaining_past_lt {inp : Input} {s : State}
    (h : (inp.tokenAt s.cursor).kind ≠ .eof) :
    inp.remaining (past inp s) < inp.remaining s := by
  have inside := lt_size_of_kind h
  unfold past Input.remaining
  rw [if_neg h]
  show inp.tokens.size - (s.cursor + 1) < _
  omega

theorem Steady.bind {p : Parser α} {f : α → Parser β} (hp : Steady p)
    (hf : ∀ a, Steady (f a)) : Steady (p >>= f) :=
  Respects.bind lasting_follows hp hf

theorem Steady.attempt {p : Parser α} (hp : Steady p) :
    Steady (attempt p) :=
  Respects.attempt lasting_follows hp

/-- An attempt that fails leaves the cursor and the registry it was
started with. -/
theorem attempt_error {p : Parser α} (hp : Steady p) {inp : Input}
    {s t : State} {e : Failure} (h : attempt p inp s = .error e t) :
    t.cursor = s.cursor ∧ t.registry = s.registry := by
  have body := hp inp s
  unfold Parser.attempt at h
  cases run : p inp s with
  | ok a u =>
      rw [run] at h
      cases h
  | error e' u =>
      rw [run] at h body
      cases h
      exact ⟨rfl, registry_rewind body⟩
  | defect d u =>
      rw [run] at h
      cases h

-- ===================================================== what is found

/-- A sequence that finds a value finds it by both of its parts. -/
theorem bind_ok {p : Parser α} {f : α → Parser β} {inp : Input} {b : β}
    {s t : State} (h : (p >>= f) inp s = .ok b t) :
    ∃ a u, p inp s = .ok a u ∧ f a inp u = .ok b t := by
  rw [bind_apply] at h
  cases run : p inp s with
  | ok a u =>
      rw [run] at h
      exact ⟨a, u, rfl, h⟩
  | error e u | defect d u =>
      rw [run] at h
      cases h

/-- A mark that is found is the token at the cursor, and is passed. -/
theorem mark_ok {m : Mark} {inp : Input} {token : Token} {s t : State}
    (h : mark m inp s = .ok token t) :
    (inp.tokenAt s.cursor).kind = .mark m ∧ t = past inp s := by
  unfold mark expect acceptIf accept at h
  split at h
  next found =>
      cases h
      refine ⟨?_, rfl⟩
      by_contra other
      simp only [Token.kind] at other
      simp [other] at found
  next => cases h

/-- The mark at the cursor is found. -/
theorem mark_of_kind {m : Mark} {inp : Input} {s : State}
    (h : (inp.tokenAt s.cursor).kind = .mark m) :
    mark m inp s = .ok (inp.tokenAt s.cursor) (past inp s) := by
  have kind : (inp.tokenAt s.cursor).lexeme.kind = .mark m := h
  unfold mark expect acceptIf accept
  simp [kind]

/-- What an attempt finds is what the parser finds. -/
theorem ok_of_attempt {p : Parser α} {inp : Input} {a : α} {s t : State}
    (h : attempt p inp s = .ok a t) : p inp s = .ok a t := by
  unfold attempt at h
  cases run : p inp s with
  | ok b u =>
      rw [run] at h
      exact h
  | error e u | defect d u =>
      rw [run] at h
      cases h

/-- What an optional parser finds is the parser's, or the value given
for want of it, where the parser was started. -/
theorem optional_ok {p : Parser α} (hp : Steady p) {inp : Input}
    {a b : α} {s t : State} (h : optional p a inp s = .ok b t) :
    p inp s = .ok b t
      ∨ b = a ∧ t.cursor = s.cursor ∧ t.registry = s.registry := by
  rw [optional_eq] at h
  unfold attemptElse at h
  cases run : attempt p inp s with
  | ok a' u =>
      rw [run] at h
      cases h
      exact .inl (ok_of_attempt run)
  | error e u =>
      rw [run] at h
      cases h
      exact .inr ⟨rfl, attempt_error hp run⟩
  | defect d u =>
      rw [run] at h
      cases h

/-- The rounds of a loop that finds values: it is over where a round finds
none, or finds one that cost no token. -/
inductive Rounds (next : Parser (Option α)) (inp : Input) :
    State → List α → State → Prop
  | none {s t : State} (round : next inp s = .ok none t) :
      Rounds next inp s [] t
  | last {s t : State} {a : α} (round : next inp s = .ok (some a) t)
      (stuck : ¬ inp.remaining t < inp.remaining s) :
      Rounds next inp s [a] t
  | more {s t u : State} {a : α} {as : List α}
      (round : next inp s = .ok (some a) t)
      (less : inp.remaining t < inp.remaining s)
      (rest : Rounds next inp t as u) : Rounds next inp s (a :: as) u

theorem rounds_of_loop {next : Parser (Option α)} {inp : Input}
    {as : List α} {s t : State} (h : loop next inp s = .ok as t) :
    Rounds next inp s as t := by
  unfold loop at h
  fun_induction loopFrom next inp s generalizing as with
  | case1 s u round =>
      cases h
      exact .none round
  | case2 s a u round less as' v rest ih =>
      cases h
      exact .more round less (ih rest)
  | case3 s a u _ _ other => exact absurd h (other as t)
  | case4 s a u round stuck =>
      cases h
      exact .last round stuck
  | case5 => cases h
  | case6 => cases h

/-- What every round of a loop keeps, the loop keeps. -/
theorem loop_keeps (keep : State → Prop) {p : Parser (Option α)}
    {inp : Input}
    (round : ∀ s a t, p inp s = .ok a t → keep s → keep t) {as : List α}
    {s t : State} (h : loop p inp s = .ok as t) (start : keep s) :
    keep t := by
  replace h := rounds_of_loop h
  induction h with
  | none run => exact round _ _ _ run start
  | last run => exact round _ _ _ run start
  | more run _ _ ih => exact ih (round _ _ _ run start)

/-- Which failures came before makes no difference to what is found. -/
theorem choiceAfter_ok_of_ok {inp : Input} {a : α} {t : State}
    {ps : List (Parser α)} :
    ∀ {failed failed' : Failure} {s : State},
      choiceAfter failed ps inp s = .ok a t →
      choiceAfter failed' ps inp s = .ok a t := by
  induction ps with
  | nil =>
      intro failed failed' s h
      cases h
  | cons p ps ih =>
      intro failed failed' s h
      rw [choiceAfter_cons] at h ⊢
      unfold attemptElse at h ⊢
      cases run : Parser.attempt p inp s with
      | ok a' t' =>
          rw [run] at h
          exact h
      | error e t' =>
          rw [run] at h
          exact ih h
      | defect d t' =>
          rw [run] at h
          cases h

/-- A choice finds what it would find after a failure. -/
theorem choice_ok_iff {inp : Input} {a : α} {s t : State}
    {ps : List (Parser α)} (failed : Failure) :
    choice ps inp s = .ok a t ↔ choiceAfter failed ps inp s = .ok a t := by
  cases ps with
  | nil =>
      constructor
      · intro h
        cases h
      · intro h
        cases h
  | cons p ps =>
      rw [choice_cons, choiceAfter_cons]
      unfold attemptElse
      cases Parser.attempt p inp s with
      | ok => exact Iff.rfl
      | error => exact ⟨choiceAfter_ok_of_ok, choiceAfter_ok_of_ok⟩
      | defect => exact Iff.rfl

/-- A choice that finds a value finds it by one of its alternatives,
run with the cursor and the registry of the whole. -/
theorem choice_ok {inp : Input} {a : α} {t : State}
    {ps : List (Parser α)} (hps : ∀ p ∈ ps, Steady p) :
    ∀ {s : State}, choice ps inp s = .ok a t →
      ∃ p ∈ ps, ∃ s' : State, s'.cursor = s.cursor
        ∧ s'.registry = s.registry ∧ p inp s' = .ok a t := by
  induction ps with
  | nil =>
      intro s h
      cases h
  | cons p ps ih =>
      intro s h
      have body := hps p List.mem_cons_self inp s
      rw [choice_cons] at h
      unfold attemptElse Parser.attempt at h
      cases run : p inp s with
      | ok a' t' =>
          rw [run] at h
          cases h
          exact ⟨p, List.mem_cons_self, s, rfl, rfl, run⟩
      | error e t' =>
          rw [run] at h body
          obtain ⟨q, hq, s', cursor, registry, found⟩ :=
            ih (fun q hq => hps q (List.mem_cons_of_mem p hq))
              ((choice_ok_iff e).2 h)
          exact ⟨q, List.mem_cons_of_mem p hq, s', cursor,
            registry.trans (registry_rewind body), found⟩
      | defect d t' =>
          rw [run] at h
          cases h

-- ===================================================== all parsers

/-- Of two lists of one length, every member of the first is half of a
pair. -/
theorem exists_mem_zip_left {ps ps' : List (Parser α)}
    (length : ps.length = ps'.length) {p : Parser α} (hp : p ∈ ps) :
    ∃ p', (p, p') ∈ ps.zip ps' := by
  rw [← List.map_fst_zip (Nat.le_of_eq length)] at hp
  obtain ⟨⟨q, q'⟩, hq, rfl⟩ := List.mem_map.1 hp
  exact ⟨q', hq⟩

/-- The same of the second list. -/
theorem exists_mem_zip_right {ps ps' : List (Parser α)}
    (length : ps.length = ps'.length) {p' : Parser α} (hp : p' ∈ ps') :
    ∃ p, (p, p') ∈ ps.zip ps' := by
  rw [← List.map_snd_zip (Nat.le_of_eq length.symm)] at hp
  obtain ⟨⟨q, q'⟩, hq, rfl⟩ := List.mem_map.1 hp
  exact ⟨q, hq⟩

namespace Alike

variable {exact : Prop} {e e' : Parser Term} {b c : Bool}
  {R : Likeness α} {p p' : Parser α}

/-- However parsers are built, they respect what nested expressions
do. -/
theorem respects {Q : State → State → Prop} (lasting : Lasting Q)
    (he : Respects Q e) (he' : Respects Q e')
    (h : Alike exact e e' b c R p p') : Respects Q p ∧ Respects Q p' := by
  have same {α : Type} {p : Parser α} (h : Respects Q p) :
      Respects Q p ∧ Respects Q p := ⟨h, h⟩
  induction h with
  | pure => exact ⟨fun _ s => lasting.refl s, fun _ s => lasting.refl s⟩
  | @bind _ _ _ _ _ R _ _ _ _ _ _ _ first next =>
      exact ⟨first.1.bind lasting fun a => (next a a (R.refl a)).1,
        first.2.bind lasting fun a => (next a a (R.refl a)).2⟩
  | weaken _ _ _ _ ih => exact ih
  | nested => exact ⟨he, he'⟩
  | broken => exact same fun _ s => lasting.refl s
  | peek => exact same (respects_ask lasting _)
  | lastStop => exact same (respects_ask lasting _)
  | consult => exact ⟨respects_ask lasting _, respects_ask lasting _⟩
  | advance => exact same lasting.past
  | accept => exact same (respects_accept lasting _ _)
  | failWith => exact same (respects_failWith lasting _ _)
  | declareFixities => exact same (lasting.declareFixities _)
  | define => exact same (lasting.define _ _)
  | attempt _ ih => exact ⟨ih.1.attempt lasting, ih.2.attempt lasting⟩
  | choice length _ ih =>
      constructor
      · refine respects_choice lasting fun p hp => ?_
        obtain ⟨p', hq⟩ := exists_mem_zip_left length hp
        exact (ih (p, p') hq).1
      · refine respects_choice lasting fun p' hp' => ?_
        obtain ⟨p, hq⟩ := exists_mem_zip_right length hp'
        exact (ih (p, p') hq).2
  | optional _ _ ih =>
      exact ⟨ih.1.optional lasting _, ih.2.optional lasting _⟩
  | loop _ ih => exact ⟨ih.1.loop lasting, ih.2.loop lasting⟩

theorem steady (he : Steady e) (he' : Steady e')
    (h : Alike exact e e' b c R p p') : Steady p ∧ Steady p' :=
  h.respects lasting_follows he he'

/-- A parser that reads a token on its way to a value leaves less of
the input than it found. -/
theorem remaining_lt (he : Steady e) (he' : Steady e')
    (h : Alike exact e e' b c R p p') : ∀ {inp s a t}, p inp s = .ok a t →
      c = true → b = false → inp.remaining t < inp.remaining s := by
  induction h with
  | pure | peek | lastStop | consult | advance | declareFixities | define
  | optional | loop =>
      -- these read no token, so they do not say that they have
      intro inp s a t run after before
      simp [after] at before
  | broken | failWith =>
      intro inp s a t run
      cases run
  | nested =>
      intro inp s a t run after before
      cases before
  | @bind _ _ _ c _ R _ p _ f _ hp hf first next =>
      intro inp s a t run after before
      obtain ⟨a', u, start, run⟩ := bind_ok run
      have begun := ((hp.steady he he').1 inp s).remaining_le inp
      have ended :=
        (((hf a' a' (R.refl a')).steady he he').1 inp u).remaining_le inp
      rw [start] at begun
      rw [run] at ended
      cases c with
      | true => exact Nat.lt_of_le_of_lt ended (first start rfl before)
      | false =>
          exact Nat.lt_of_lt_of_le
            (next a' a' (R.refl a') run after rfl) begun
  | weaken _ before after _ ih =>
      intro inp s a t run done fresh
      refine ih run (after done) ?_
      rw [← Bool.not_eq_true] at fresh ⊢
      exact fun h => fresh (before h)
  | @accept _ _ _ _ read _ _ reads =>
      intro inp s a t run after before
      have never : ∀ lang t, t.kind = .eof → read lang t = none :=
        reads.resolve_left (by simp [after, before])
      unfold Parser.accept at run
      split at run
      next taken =>
        cases run
        refine remaining_past_lt fun ended => ?_
        rw [never _ _ ended] at taken
        cases taken
      next => cases run
  | attempt _ ih =>
      intro inp s a t run after before
      exact ih (ok_of_attempt run) after before
  | choice length each ih =>
      intro inp s a t run after before
      have members : ∀ p ∈ _, Steady p := fun p hp => by
        obtain ⟨p', hq⟩ := exists_mem_zip_left length hp
        exact ((each (p, p') hq).steady he he').1
      obtain ⟨p, hp, s', cursor, -, found⟩ := choice_ok members run
      obtain ⟨p', hq⟩ := exists_mem_zip_left length hp
      have less := ih (p, p') hq found after before
      unfold Input.remaining at less ⊢
      rw [cursor] at less
      exact less

end Alike

end Parser

end DepLang
