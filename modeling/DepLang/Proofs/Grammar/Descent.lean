/-
Expressions by recursive descent, on a stack of bounded height.
`descend n` climbs the levels call by call, a loop for the operators
that group to the left and a call of its own for every one that groups
to the right; a call that finds no frame left on the stack is a defect.
It reads what the grammar reads as soon as there are frames for every
token left and every level of the fixity table (`descend_eq_expr`), so how
deep expressions nest depends on nothing else.

The induction is on the frames. A call for a level goes on with a
tighter one at the same token, and a level's right operands and nested
expressions stand behind a token that was read: there a whole climb over
all the levels has room again (`Deep.behind`).
-/
import DepLang.Proofs.Grammar.Nested

namespace DepLang.Grammar

open DepLang.Parser

variable {inp : Input} {level : Level} {q : Parser Term} {s t : State}
  {x : Term} {op : Operator} {assoc : Assoc}

-- ======================================================== the rounds

/-- The rounds of a chain: none if the level offers nothing, and else
one that takes the operator, if the chain can. -/
theorem loop_chainStep_apply (steady : Steady q) (assoc : Assoc) :
    loop (chainStep level assoc q) inp s =
      match offered level inp s with
      | none => .ok [] s
      | some op =>
        if continues assoc op then
          (q >>= fun y => ((op, y) :: ·) <$> loop (chainStep level assoc q))
            inp (past inp s)
        else failWith (some (.ambiguous op.assoc)) [] inp s := by
  have step : chainStep level assoc q inp s = _ := chainStep_apply assoc
  rw [loop_apply, step]
  cases found : offered level inp s with
  | none => rfl
  | some op =>
      simp only [found] at step
      by_cases takes : continues assoc op = true
      · simp only [if_pos takes] at step ⊢
        rw [bind_apply]
        cases run : q inp (past inp s) with
        | ok y t =>
            rw [run] at step
            have less := remaining_lt_of_chainStep steady step
            exact if_pos less
        | error | defect => rfl
      · simp only [if_neg takes]
        rfl

/-- A level that offers nothing ends the chain. -/
theorem map_loop_idle {β : Type} (f : List (Operator × Term) → β)
    (steady : Steady q) (idle : offered level inp s = none) :
    (f <$> loop (chainStep level assoc q)) inp s = .ok (f []) s := by
  rw [map_apply, loop_chainStep_apply steady, idle]

/-- An operator that the chain can take is taken, with an operand. -/
theorem map_loop_takes {β : Type} (f : List (Operator × Term) → β)
    (steady : Steady q) (found : offered level inp s = some op)
    (takes : continues assoc op = true) :
    (f <$> loop (chainStep level assoc q)) inp s
      = (q >>= fun y => (fun rest => f ((op, y) :: rest))
          <$> loop (chainStep level assoc q)) inp (past inp s) := by
  rw [map_apply, loop_chainStep_apply steady, found]
  simp only [if_pos takes]
  rw [← map_apply, map_bind]
  simp only [Functor.map_map]

/-- An operator that the chain cannot take is an ambiguity. -/
theorem map_loop_refuses {β : Type} (f : List (Operator × Term) → β)
    (steady : Steady q) (found : offered level inp s = some op)
    (refuses : continues assoc op = false) :
    (f <$> loop (chainStep level assoc q)) inp s
      = failWith (some (.ambiguous op.assoc)) [] inp s := by
  rw [map_apply, loop_chainStep_apply steady, found]
  simp only [refuses, Bool.false_eq_true, if_false]
  rfl

-- ======================================================== one level

/-- The operators of a chain to the left, in no more than so many
rounds: what has been read so far is the first operand of the next
one. -/
def climbLeft (level : Level) (operand : Parser Term) :
    Nat → Term → Operator → Parser Term
  | 0, _, _ => broken .nestedTooDeep
  | rounds + 1, x, op =>
    if op.assoc = .left then do
      let _ ← advance
      let y ← operand
      match ← peekOperator level with
      | none => pure (op.build x y)
      | some next => climbLeft level operand rounds (op.build x y) next
    else failWith (some (.ambiguous op.assoc)) []

/-- The operator of a chain that cannot go on. -/
def climbOnce (level : Level) (operand : Parser Term) (x : Term)
    (op : Operator) : Parser Term := do
  let _ ← advance
  let y ← operand
  match ← peekOperator level with
  | none => pure (op.build x y)
  | some next => failWith (some (.ambiguous next.assoc)) []

/-- A chain, with its operators taken up as its first one asks. -/
theorem chain_eq_climbs (steady : Steady q) :
    chain level q inp s = (do
      let x ← q
      match ← peekOperator level with
      | none => pure x
      | some op =>
        match op.assoc with
        | .left => joinLeft x <$> loop (chainStep level .left q)
        | .right => joinRight x <$> loop (chainStep level .right q)
        | .neither => climbOnce level q x op) inp s := by
  refine bind_congr_at rfl fun x t _ => ?_
  rw [peekOperator_bind, peekOperator_bind]
  cases found : offered level inp t with
  | none => rfl
  | some op =>
      cases side : op.assoc with
      | left | right =>
          simp only [side]
          have takes := (continues_iff _ (by decide) op).2 side
          exact (map_loop_takes _ steady found takes).symm
      | neither =>
          simp only [side]
          refine bind_congr_at rfl fun _ s' _ =>
            bind_congr_at rfl fun y u _ => ?_
          rw [peekOperator_bind]
          cases next : offered level inp u with
          | none =>
              exact map_loop_idle (fun rest => joinLeft x ((op, y) :: rest))
                steady next
          | some other =>
              have refuses : continues .neither other = false :=
                Bool.and_false _
              exact map_loop_refuses
                (fun rest => joinLeft x ((op, y) :: rest)) steady next refuses

/-- Rounds for every token left are enough for a chain to the left. -/
theorem climbLeft_eq_loop {I : State → Prop} {q' : Parser Term}
    (region : Region inp I) (plain : Plain q) (same : Same inp I q q') :
    ∀ (rounds : Nat) {s : State} (x : Term) {op : Operator}, I s →
      inp.remaining s < rounds → offered level inp s = some op →
      climbLeft level q' rounds x op inp s
        = (joinLeft x <$> loop (chainStep level .left q)) inp s := by
  intro rounds
  induction rounds with
  | zero => exact fun _ _ _ few _ => absurd few (Nat.not_lt_zero _)
  | succ rounds ih =>
      intro s x op hs enough found
      unfold climbLeft
      by_cases side : op.assoc = .left
      · have takes := (continues_iff .left (by decide) op).2 side
        rw [if_pos side, map_loop_takes _ plain.alike.steady found takes,
          advance_bind]
        have hp := region.past hs
        refine bind_congr_at (same _ hp).symm fun y t run => ?_
        rw [← same _ hp] at run
        have ahead := ahead_of_plain plain (region.within _ hp) run
        -- from here on the operation is the first operand
        show _ = (joinLeft (op.build x y)
          <$> loop (chainStep level .left q)) inp t
        rw [peekOperator_bind]
        cases next : offered level inp t with
        | none =>
            exact (map_loop_idle (joinLeft (op.build x y))
              plain.alike.steady next).symm
        | some other =>
            have less := remaining_past_lt (kind_of_offered found)
            have later := ahead.remaining_le
            exact ih (op.build x y) (region.ahead _ t hp ahead) (by omega) next
      · have refuses := Bool.eq_false_iff.2 <|
          mt (continues_iff .left (by decide) op).1 side
        rw [if_neg side, map_loop_refuses _ plain.alike.steady found refuses]

theorem climbOnce_same {I : State → Prop} {q' : Parser Term}
    (region : Region inp I) (same : Same inp I q q') (x : Term)
    (op : Operator) :
    Same inp I (climbOnce level q x op) (climbOnce level q' x op) :=
  fun s hs => (same.andThen _) (past inp s) (region.past hs)

-- ========================================================= descent

/-- The calls of the descent. -/
inductive Call where
  /-- An expression. -/
  | whole
  /-- An expression over the levels, loosest first. -/
  | climb (levels : List Level)
  /-- The operators of a chain to the right, from one at the cursor
  that follows an operand. -/
  | climbRight (level : Level) (tighter : List Level) (x : Term)
      (op : Operator)

/-- Runs a call on a stack with no more than so many frames. An operand
has one for all its rules, which call one another only so far before
they come to a nested expression. -/
def descend : Nat → Call → Parser Term
  | 0, _ => broken .nestedTooDeep
  | n + 1, .whole => fun inp s =>
    descend n (.climb s.registry.fixities.levels.reverse) inp s
  | n + 1, .climb [] => operand (descend n .whole)
  | n + 1, .climb (level :: tighter) => do
    let x ← descend n (.climb tighter)
    match ← peekOperator level with
    | none => pure x
    | some op =>
      match op.assoc with
      | .left => climbLeft level (descend n (.climb tighter)) n x op
      | .right => descend n (.climbRight level tighter x op)
      | .neither => climbOnce level (descend n (.climb tighter)) x op
  | n + 1, .climbRight level tighter x op => do
    let _ ← advance
    let y ← descend n (.climb tighter)
    match ← peekOperator level with
    | none => pure (op.build x y)
    | some next =>
      if next.assoc = .right then
        op.build x <$> descend n (.climbRight level tighter y next)
      else failWith (some (.ambiguous next.assoc)) []

/-- What a call reads. -/
def Call.reads : Call → Parser Term
  | .whole => expr
  | .climb levels => chains (operand expr) levels
  | .climbRight level tighter x _ =>
    joinRight x
      <$> loop (chainStep level .right (chains (operand expr) tighter))

/-- Where a call is made: one for an operator, where it is offered. -/
def Call.MadeAt (inp : Input) (s : State) : Call → Prop
  | .climbRight level _ _ op =>
    offered level inp s = some op ∧ op.assoc = .right
  | _ => True

/-- The frames that a call needs at the last token, over a table with so
many levels. -/
def Call.height (levels : Nat) : Call → Nat
  | .whole => levels + 2
  | .climb tighter => tighter.length + 1
  | .climbRight _ tighter _ _ => tighter.length + 1

/-- There is room on the stack for a call of the given height, and for
an expression at every token left. -/
structure Deep (inp : Input) (frames height : Nat) (s : State) : Prop where
  within : s.cursor ≤ inp.tokens.size
  room : inp.remaining s * (s.registry.fixities.levels.length + 3) + height
    ≤ frames

variable {n h h' : Nat}

/-- A call that is not as high has room on what is left of the stack. -/
theorem Deep.call (deep : Deep inp (n + 1) h s) (lower : h' < h) :
    Deep inp n h' s :=
  ⟨deep.within, by have := deep.room; omega⟩

theorem Deep.ahead (deep : Deep inp n h s) (ahead : Ahead inp s t) :
    Deep inp n h t := by
  refine ⟨ahead.within, Nat.le_trans (Nat.add_le_add_right ?_ h) deep.room⟩
  rw [ahead.registry]
  exact Nat.mul_le_mul_right _ ahead.remaining_le

/-- Behind a token there is room for all the levels. -/
theorem Deep.behind (deep : Deep inp n h s) (ahead : Ahead inp s t)
    (behind : s.cursor < t.cursor) :
    Deep inp n (s.registry.fixities.levels.length + 3 + h) t := by
  refine ⟨ahead.within, Nat.le_trans ?_ deep.room⟩
  rw [ahead.registry, ← Nat.add_assoc, ← Nat.succ_mul]
  have less := ahead.remaining_lt behind
  exact Nat.add_le_add_right (Nat.mul_le_mul_right _ less) h

/-- Every token left is worth a round. -/
theorem Deep.rounds (deep : Deep inp n (h + 1) s) : inp.remaining s < n := by
  have tokens : inp.remaining s
      ≤ inp.remaining s * (s.registry.fixities.levels.length + 3) :=
    Nat.le_mul_of_pos_right _ (Nat.succ_pos _)
  exact Nat.lt_of_lt_of_le (Nat.lt_succ_of_le (Nat.le_add_right_of_le tokens))
    deep.room

theorem lt_cursor_past (more : (inp.tokenAt s.cursor).kind ≠ .eof) :
    s.cursor < (past inp s).cursor := by
  unfold past
  rw [if_neg more]
  exact Nat.lt_succ_self _

theorem region_deep (inp : Input) (n h : Nat) : Region inp (Deep inp n h) where
  within := fun _ deep => deep.within
  ahead := fun _ _ deep ahead => deep.ahead ahead

-- ========================================================= the calls

/-- All calls that have room on a stack of so many frames read what they
should. -/
def Reaches (inp : Input) (n : Nat) : Prop :=
  ∀ (c : Call) {s : State}, c.MadeAt inp s →
    Deep inp n (c.height s.registry.fixities.levels.length) s →
    descend n c inp s = c.reads inp s

theorem Reaches.climb (reaches : Reaches inp n) (levels : List Level) :
    Same inp (Deep inp n (levels.length + 1))
      (chains (operand expr) levels) (descend n (.climb levels)) :=
  fun _ deep => (reaches (.climb levels) trivial deep).symm

theorem Reaches.whole (reaches : Reaches inp n)
    (deep : Deep inp (n + 1) (s.registry.fixities.levels.length + 2) s) :
    descend (n + 1) .whole inp s = expr inp s := by
  have levels := reaches.climb s.registry.fixities.levels.reverse
  rw [List.length_reverse] at levels
  rw [congrFun (congrFun expr_eq_exprOver inp) s]
  exact (levels s (deep.call (Nat.lt_succ_self _))).symm

/-- An operand enters nested expressions behind a token. -/
theorem Reaches.operand (reaches : Reaches inp n)
    (deep : Deep inp (n + 1) 1 s) :
    operand (descend n .whole) inp s = operand expr inp s := by
  refine operand_eq_of_nested (fun t ahead behind => ?_) deep.within
  -- the token in front of the nested expression pays for all its levels
  have room : Deep inp n (t.registry.fixities.levels.length + 2) t := by
    rw [ahead.registry]
    exact (deep.behind ahead behind).call (by omega)
  exact reaches .whole trivial room

theorem Reaches.chain (reaches : Reaches inp n) {tighter : List Level}
    (deep : Deep inp (n + 1) (tighter.length + 2) s) :
    descend (n + 1) (.climb (level :: tighter)) inp s
      = chain level (chains (Grammar.operand expr) tighter) inp s := by
  -- what the tighter call does where it has room, in this chain as well
  have region := region_deep inp n (tighter.length + 1)
  have plain := plain_chains tighter
  have same := reaches.climb tighter
  have deep : Deep inp n (tighter.length + 1) s :=
    deep.call (Nat.lt_succ_self _)
  rw [chain_eq_climbs plain.alike.steady]
  refine bind_congr_at (same s deep).symm fun x t run => ?_
  rw [← same s deep] at run
  have ht := region.ok plain deep run
  rw [peekOperator_bind, peekOperator_bind]
  cases found : offered level inp t with
  | none => rfl
  | some op =>
      cases side : op.assoc with
      | left =>
          simp only [side]
          exact climbLeft_eq_loop region plain same n x ht ht.rounds found
      | right =>
          simp only [side]
          exact reaches (.climbRight level tighter x op) ⟨found, side⟩ ht
      | neither =>
          simp only [side]
          exact (climbOnce_same region same x op t ht).symm

theorem Reaches.climbRight (reaches : Reaches inp n) {tighter : List Level}
    (made : (Call.climbRight level tighter x op).MadeAt inp s)
    (deep : Deep inp (n + 1) (tighter.length + 1) s) :
    descend (n + 1) (.climbRight level tighter x op) inp s
      = (Call.climbRight level tighter x op).reads inp s := by
  obtain ⟨found, side⟩ := made
  have region := region_deep inp n (tighter.length + 1)
  have plain := plain_chains tighter
  have same := reaches.climb tighter
  have takes := (continues_iff .right (by decide) op).2 side
  have behind := lt_cursor_past (kind_of_offered found)
  have hp : Deep inp n (tighter.length + 1) (past inp s) :=
    (deep.behind (ahead_past deep.within) behind).call (by omega)
  refine Eq.trans ?_ (map_loop_takes _ plain.alike.steady found takes).symm
  refine bind_congr_at (same _ hp).symm fun y t run => ?_
  rw [← same _ hp] at run
  have ht := region.ok plain hp run
  rw [peekOperator_bind]
  cases next : offered level inp t with
  | none =>
      exact (map_loop_idle (fun rest => joinRight x ((op, y) :: rest))
        plain.alike.steady next).symm
  | some other =>
      by_cases side : other.assoc = .right
      · simp only [if_pos side]
        have rest := reaches (.climbRight level tighter y other)
          ⟨next, side⟩ ht
        -- what the next call joins is the second operand of this one
        refine (bind_congr_at rest fun _ _ _ => rfl).trans ?_
        show (op.build x <$> joinRight y <$> loop _) inp t = _
        rw [Functor.map_map]
        rfl
      · have refuses := Bool.eq_false_iff.2 <|
          mt (continues_iff .right (by decide) other).1 side
        simp only [if_neg side]
        exact (map_loop_refuses (fun rest => joinRight x ((op, y) :: rest))
          plain.alike.steady next refuses).symm

theorem Call.height_pos (c : Call) (levels : Nat) :
    0 < c.height levels := by
  cases c <;> exact Nat.succ_pos _

/-- A call that has room reads what it should. -/
theorem reaches (inp : Input) (n : Nat) : Reaches inp n := by
  induction n with
  | zero =>
      intro c s _ deep
      have room := deep.room
      have high := c.height_pos s.registry.fixities.levels.length
      omega
  | succ n ih =>
      intro c s made deep
      cases c with
      | whole => exact ih.whole deep
      | climb levels =>
          cases levels with
          | nil => exact ih.operand deep
          | cons level tighter => exact ih.chain deep
      | climbRight level tighter x op => exact ih.climbRight made deep

/-- Frames for every token and every level are enough. -/
theorem descend_eq_expr (inside : s.cursor ≤ inp.tokens.size)
    (enough : (inp.remaining s + 1)
      * (s.registry.fixities.levels.length + 3) ≤ n) :
    descend n .whole inp s = expr inp s := by
  refine reaches inp n .whole trivial ⟨inside, ?_⟩
  rw [Nat.succ_mul] at enough
  exact Nat.le_trans (Nat.add_le_add_left (Nat.le_succ _) _) enough

-- ===================================================== termination

/-- Over tokens that end with the end of the input, whatever else is
among them, no run goes on without end or leaves the tokens. Every rule,
an application of a given head and a whole module end in a value or in a
failure, and each part they are made of leaves off on a token no further
back than it began. No expression is entered inside another one before a
token of that was read. Each declaration of a module takes a token, so
that there are no more rounds than tokens. And an expression is read on
a stack whose height the tokens left and the levels of the fixity table
bound. -/
theorem grammar_terminates {tokens : List Token} {origin : Origin}
    {language : Language} {inp : Input} {s : State}
    (made : Input.ofTokens? tokens origin language = some inp)
    (inside : s.cursor < tokens.length) :
    (∀ {ρ : Type} (rule : Rule),
        (rule.parser : Parser (Value ρ)).Terminates inp tokens.length s)
      ∧ (∀ head, (application expr head).Terminates inp tokens.length s)
      ∧ moduleItems.Terminates inp tokens.length s
      ∧ (∀ {α : Type} {p : Parser α}, Built p →
        s.cursor ≤ (p inp s).state.cursor
          ∧ (p inp s).state.cursor < tokens.length)
      ∧ exprOver (enteredOnly (fun t => s.cursor < t.cursor
          ∧ t.cursor < tokens.length
          ∧ t.registry.fixities = s.registry.fixities) expr) inp s
        = expr inp s
      ∧ (∀ d t, item inp s = .ok d t → s.cursor < t.cursor)
      ∧ (∀ rounds, tokens.length - s.cursor ≤ rounds →
        program rounds inp s = moduleItems inp s)
      ∧ ∀ frames,
        (tokens.length - s.cursor)
          * (s.registry.fixities.levels.length + 3) ≤ frames →
        descend frames .whole inp s = expr inp s := by
  rw [Input.length_of_ofTokens? made] at inside ⊢
  have inside : s.cursor ≤ inp.tokens.size := Nat.le_of_lt_succ inside
  have left : inp.tokens.size + 1 - s.cursor = inp.remaining s + 1 :=
    Nat.succ_sub inside
  rw [left]
  refine ⟨fun rule => rule_terminates rule inside,
    fun head => application_terminates head inside,
    moduleItems_terminates inside, fun built => ?_, ?_, fun d t run => ?_,
    fun rounds => program_eq_moduleItems,
    fun frames => descend_eq_expr inside⟩
  · obtain ⟨forth, within⟩ := built.selfAlike.stays inside
    exact ⟨forth, Nat.lt_succ_of_le within⟩
  · simp only [Nat.lt_succ_iff]
    exact expr_eq_guarded inside
  · have less := remaining_lt_of_item run
    unfold Input.remaining at less
    omega

/-- Tokens with an end among them, under a table with two operators. The
parentheses are never closed, and thirty-five frames are enough to find
that out. -/
theorem grammar_terminates_unclosed :
    let tokens : List Token :=
      [⟨.ofMark .lparen, ⟨0, 1⟩⟩, ⟨.ident "x", ⟨1, 2⟩⟩, ⟨.eof "", ⟨2, 2⟩⟩,
        ⟨.ofMark .rparen, ⟨2, 3⟩⟩, ⟨.eof "", ⟨3, 3⟩⟩]
    let s : State := { registry :=
      { fixities := [⟨⟨.left, 6⟩, "+"⟩, ⟨⟨.right, 7⟩, "^"⟩] } }
    ∃ inp, Input.ofTokens? tokens ⟨"m", none⟩ .standard = some inp
      ∧ s.cursor < tokens.length
      ∧ (Rule.declaration.parser : Parser (Value Unit)).Terminates inp 5 s
      ∧ program 5 inp s = moduleItems inp s
      ∧ descend 35 .whole inp s = expr inp s := by
  intro tokens s
  obtain ⟨inp, made⟩ : ∃ inp,
      Input.ofTokens? tokens ⟨"m", none⟩ .standard = some inp := ⟨_, rfl⟩
  obtain ⟨rules, -, -, -, -, -, rounds, frames⟩ :=
    grammar_terminates (s := s) made (by decide)
  exact ⟨inp, made, by decide, rules _, rounds 5 (by decide),
    frames 35 (by decide)⟩

end DepLang.Grammar
