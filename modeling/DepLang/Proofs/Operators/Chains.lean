/-
What a nest of chains makes of a row of operands. The levels are given
as a list, loosest first, and a row laid out in the tokens is read as
`groupOver` says: at every level it is cut at the operators that no
tighter level has, the tighter levels read the pieces, and the chain
joins them or refuses.

The proof follows the parser. A chain reads its first piece, and its
loop the others, each by the induction hypothesis of the tighter levels:
a piece ends before an operator that these levels do not have. A piece
that cannot be grouped is refused, and so is then everything around it.
-/
import DepLang.Proofs.Operators.Grouping
import DepLang.Proofs.Parser.Reads

namespace DepLang

open DepLang.Grammar DepLang.Parser

-- ==================================================== rows in tokens

section
variable {β γ : Type} (inp : Input) (holds : Nat → Nat → β → Prop)

/-- From one cursor to another stand operators, each before something
that holds of the tokens up to the next. -/
inductive Follow : Nat → List (String × β) → Nat → Prop
  | nil {k : Nat} : Follow k [] k
  | cons {i j k : Nat} {op : String} {b : β} {rest : List (String × β)}
      (token : (inp.tokenAt i).lexeme = .operator op)
      (next : holds (i + 1) j b) (more : Follow j rest k) :
      Follow i ((op, b) :: rest) k

end

namespace Follow

variable {β γ : Type} {inp : Input} {holds : Nat → Nat → β → Prop}
  {i j k : Nat} {rest : List (String × β)}

theorem le (progress : ∀ {i j b}, holds i j b → i < j)
    (h : Follow inp holds i rest k) : i ≤ k := by
  induction h with
  | nil => exact Nat.le_refl _
  | cons _ next _ ih =>
      have := progress next
      omega

/-- What stands before the rest is followed by one of its operators, or
by what follows the whole. -/
theorem head (h : Follow inp holds i rest k) :
    i = k ∨ ∃ c ∈ rest, (inp.tokenAt i).lexeme = .operator c.1 := by
  cases h with
  | nil => exact .inl rfl
  | cons token => exact .inr ⟨_, List.mem_cons_self, token⟩

/-- What holds of a part may depend on what follows it. -/
theorem map {holds' : Nat → Nat → γ → Prop} (f : β → γ)
    (h : Follow inp holds i rest k)
    (each : ∀ c ∈ rest, ∀ i j, holds i j c.2 →
      (j = k ∨ ∃ d ∈ rest, (inp.tokenAt j).lexeme = .operator d.1) →
      holds' i j (f c.2)) :
    Follow inp holds' i (rest.map fun c => (c.1, f c.2)) k := by
  induction h with
  | nil => exact .nil
  | @cons i j k op b rest token next more ih =>
      refine .cons token ?_ (ih ?_)
      · refine each (op, b) List.mem_cons_self _ _ next ?_
        exact more.head.imp_right fun ⟨c, hc, ht⟩ =>
          ⟨c, List.mem_cons_of_mem _ hc, ht⟩
      · intro c hc i' j' hb last
        refine each c (List.mem_cons_of_mem _ hc) i' j' hb ?_
        exact last.imp_right fun ⟨d, hd, ht⟩ =>
          ⟨d, List.mem_cons_of_mem _ hd, ht⟩

end Follow

/-- The row stands in the tokens from one cursor to another. -/
def Row.LaidOut (inp : Input) (holds : Nat → Nat → Term → Prop)
    (i j : Nat) (row : Row) : Prop :=
  ∃ k, holds i k row.first ∧ Follow inp holds k row.rest j

namespace Row

variable {inp : Input} {holds : Nat → Nat → Term → Prop} {i j k : Nat}

theorem LaidOut.lt (progress : ∀ {i j b}, holds i j b → i < j)
    {row : Row} (h : row.LaidOut inp holds i k) : i < k := by
  obtain ⟨j, first, rest⟩ := h
  exact Nat.lt_of_lt_of_le (progress first) (rest.le progress)

/-- The pieces of a row stand where the row does. -/
theorem laidOut_cut (picked : String → Bool)
    {rest : List (String × Term)} (h : Follow inp holds j rest k) :
    ∀ {i : Nat} {x : Term}, holds i j x →
      ∃ m, (cut picked x rest).1.LaidOut inp holds i m
        ∧ Follow inp (LaidOut inp holds) m (cut picked x rest).2 k := by
  induction h with
  | nil =>
      intro i x hx
      exact ⟨_, ⟨_, hx, .nil⟩, .nil⟩
  | @cons j j' k op y rest token next more ih =>
      intro i x hx
      obtain ⟨m, piece, others⟩ := ih next
      cases pick : picked op with
      | true =>
          rw [cut_picked pick]
          exact ⟨j, ⟨j, hx, .nil⟩, .cons token piece others⟩
      | false =>
          rw [cut_kept pick]
          obtain ⟨l, start, inner⟩ := piece
          rw [first_cut] at start
          exact ⟨m, ⟨j, hx, .cons token start inner⟩, others⟩

end Row

-- ===================================================== levels

namespace Level

/-- Does the level have the operator? -/
def has (level : Level) (op : String) : Bool :=
  (level.operator? (.operator op)).isSome

/-- The level's operator for a symbol that it has. -/
def named (level : Level) (op : String) : Operator :=
  (level.operator? (.operator op)).getD default

theorem operator?_of_has {level : Level} {op : String}
    (h : level.has op = true) :
    level.operator? (.operator op) = some (level.named op) := by
  obtain ⟨o, ho⟩ := Option.isSome_iff_exists.1 h
  rw [named, ho, Option.getD_some]

/-- An operator that no level has is offered by none. -/
theorem operator?_of_not_any {levels : List Level} {op : String}
    (h : levels.any (·.has op) = false) :
    ∀ level ∈ levels, level.operator? (.operator op) = none := by
  simpa [has] using h

/-- The level's operators make what their symbols stand for. -/
def Faithful (level : Level) : Prop :=
  ∀ op, level.has op = true →
    ∀ x y, (level.named op).build x y = Row.combine op x y

end Level

/-- The row grouped level by level, loosest first. -/
def Row.groupOver : List Level → Row → Option Term
  | [], row => if row.rest = [] then some row.first else none
  | level :: tighter, row =>
    let pieces := cut (fun op => !tighter.any (·.has op)) row.first row.rest
    (groupOver tighter pieces.1).bind fun t =>
      (collect (pieces.2.map fun c => (c.1, groupOver tighter c.2))).bind
        (join (fun op => (level.named op).assoc) t)

-- ========================================================== chains

namespace Grammar

/-- The parser reads the value, or refuses if there is none. -/
def Yields {α : Type} (inp : Input) (r : Registry) (p : Parser α)
    (i j : Nat) : Option α → Prop
  | some a => Reads inp r p i j a
  | none => Refuses inp r p i

/-- The same, and some token is read if there is a value. -/
def Advances (inp : Input) (r : Registry) (p : Parser Term) (i j : Nat)
    (found : Option Term) : Prop :=
  i < j ∧ Yields inp r p i j found

/-- The operators and operands that a chain goes on with, if it can go
on with all of them. -/
def steps (known : String → Operator) (assoc : Assoc) :
    List (String × Option Term) → Option (List (Operator × Term))
  | [] => some []
  | (op, found) :: rest =>
    if continues assoc (known op) then
      found.bind fun t => (steps known assoc rest).map ((known op, t) :: ·)
    else none

variable {inp : Input} {r : Registry} {operand : Parser Term}
  {level : Level} {known : String → Operator} {i j k : Nat}

/-- A value is read in two parts if both are there. -/
theorem Yields.bind {α β : Type} {p : Parser α} {f : α → Parser β}
    {found : Option α} {g : α → Option β} (first : Yields inp r p i j found)
    (next : ∀ a, Yields inp r (f a) j k (g a)) :
    Yields inp r (p >>= f) i k (found.bind g) := by
  cases found with
  | none => exact Refuses.bind first
  | some a =>
      have next := next a
      rw [Option.bind_some]
      cases other : g a with
      | none =>
          rw [other] at next
          exact Reads.bind_refuses first next
      | some b =>
          rw [other] at next
          exact Reads.bind first next

/-- Behind a part that is there, the other part decides. -/
theorem Yields.behind {α β : Type} {p : Parser α} {f : α → Parser β}
    {a : α} {found : Option β} (first : Reads inp r p i j a)
    (next : Yields inp r (f a) j k found) :
    Yields inp r (p >>= f) i k found := by
  cases found with
  | none => exact first.bind_refuses next
  | some b => exact first.bind next

/-- Behind a round that goes on, the other rounds decide. -/
theorem Yields.rounds {α : Type} {next : Parser (Option α)} {a : α}
    {found : Option (List α)} (inside : (inp.tokenAt i).kind ≠ .eof)
    (less : i < j) (step : Reads inp r next i j (some a))
    (later : Yields inp r (loop next) j k found) :
    Yields inp r (loop next) i k (found.map (a :: ·)) := by
  cases found with
  | none => exact refuses_loop_cons inside less step later
  | some as => exact reads_loop_cons inside less step later

theorem kind_ne_eof_of_operator {op : String}
    (token : (inp.tokenAt i).lexeme = .operator op) :
    (inp.tokenAt i).kind ≠ .eof := by
  rw [Token.kind, token]
  simp [Lexeme.kind]

-- ============================================================ steps

/-- What the level offers is seen without being read. -/
theorem reads_peekOperator {found : Option Operator}
    (token : level.operator? (inp.tokenAt i).lexeme = found) :
    Reads inp r (peekOperator level) i i found :=
  token ▸ reads_look fun t => level.operator? t.lexeme

/-- An operator that the level has is seen as the level's. -/
theorem reads_peekOperator_named {op : String}
    (token : (inp.tokenAt i).lexeme = .operator op)
    (has : level.has op = true) :
    Reads inp r (peekOperator level) i i (some (level.named op)) :=
  reads_peekOperator (token ▸ Level.operator?_of_has has)

/-- A chain that can go on with an operator goes on if there is an
operand behind it. -/
theorem chainStep_yields {assoc : Assoc} {op : String} {found : Option Term}
    (token : (inp.tokenAt i).lexeme = .operator op)
    (has : level.has op = true)
    (goes : continues assoc (level.named op) = true)
    (next : Yields inp r operand (i + 1) j found) :
    Yields inp r (chainStep level assoc operand) i j
      (found.bind fun y => some (some (level.named op, y))) := by
  refine Yields.behind (reads_peekOperator_named token has) ?_
  simp only [goes, if_true]
  exact Yields.behind (reads_advance (kind_ne_eof_of_operator token)) <|
    next.bind fun y => reads_pure (some (level.named op, y))

theorem refuses_chainStep {assoc : Assoc} {op : String}
    (token : (inp.tokenAt i).lexeme = .operator op)
    (has : level.has op = true)
    (stuck : continues assoc (level.named op) = false) :
    Refuses inp r (chainStep level assoc operand) i := by
  refine (reads_peekOperator_named token has).bind_refuses ?_
  simp only [stuck, Bool.false_eq_true, if_false]
  exact refuses_failWith _ _

/-- A chain's loop over operands that are read or refused. -/
theorem loop_yields (assoc : Assoc) {rest : List (String × Option Term)}
    (h : Follow inp (Advances inp r operand) j rest k)
    (has : ∀ op ∈ rest.map Prod.fst, level.has op = true)
    (stops : level.operator? (inp.tokenAt k).lexeme = none) :
    Yields inp r (loop (chainStep level assoc operand)) j k
      (steps level.named assoc rest) := by
  induction h with
  | nil =>
      exact reads_loop_nil ((reads_peekOperator stops).bind (reads_pure _))
  | @cons j j' k op found rest token next more ih =>
      rw [List.map_cons, List.forall_mem_cons] at has
      have later := ih has.2 stops
      rw [steps]
      by_cases goes : continues assoc (level.named op) = true
      · rw [if_pos goes]
        have step := chainStep_yields token has.1 goes next.2
        cases found with
        | none => exact refuses_loop step
        | some y =>
            have less : j < j' := Nat.lt_trans (Nat.lt_succ_self j) next.1
            exact later.rounds (kind_ne_eof_of_operator token) less step
      · rw [if_neg goes]
        exact refuses_loop <|
          refuses_chainStep token has.1 (Bool.eq_false_iff.2 goes)

/-- A chain goes on with all that follows, if all of it is there and
groups to its side. -/
theorem steps_eq (assoc : Assoc) (rest : List (String × Option Term)) :
    steps known assoc rest = (Row.collect rest).bind fun ts =>
      if ∀ c ∈ ts, continues assoc (known c.1) = true then
        some (ts.map fun c => (known c.1, c.2))
      else none := by
  induction rest with
  | nil => rfl
  | cons c rest ih =>
      obtain ⟨op, found⟩ := c
      rw [steps, Row.collect, ih]
      cases found with
      | none => simp
      | some y =>
          cases Row.collect rest with
          | none => simp
          | some ts =>
              simp only [Option.bind_some, Option.map_some,
                List.forall_mem_cons]
              by_cases goes : continues assoc (known op) = true
              · rw [if_pos goes]
                by_cases all : ∀ c ∈ ts, continues assoc (known c.1) = true
                · rw [if_pos all, if_pos ⟨goes, all⟩]
                  rfl
                · rw [if_neg all, if_neg fun h => all h.2]
                  rfl
              · rw [if_neg goes, if_neg fun h => goes h.1]

/-- Joining operands to one side is what the chain does. -/
theorem joinChain_eq (ts : List (String × Term))
    (faithful : ∀ op ∈ ts.map Prod.fst, ∀ x y,
      (known op).build x y = Row.combine op x y) :
    ∀ x, joinLeft x (ts.map fun c => (known c.1, c.2)) = Row.foldLeft x ts
      ∧ joinRight x (ts.map fun c => (known c.1, c.2))
        = Row.foldRight x ts := by
  induction ts with
  | nil => exact fun x => ⟨rfl, rfl⟩
  | cons c ts ih =>
      intro x
      obtain ⟨op, y⟩ := c
      have ih := ih fun o ho => faithful o (List.mem_cons_of_mem _ ho)
      have build := faithful op List.mem_cons_self
      constructor
      · show joinLeft ((known op).build x y) _ = Row.foldLeft _ ts
        rw [build, (ih _).1]
      · show (known op).build x (joinRight y _) = Row.combine op x _
        rw [build, (ih y).2]

/-- The chain joins what the reference joins. -/
theorem join_cons {op : String} {y : Term} {ts : List (String × Term)}
    (faithful : ∀ o ∈ op :: ts.map Prod.fst, ∀ x y,
      (known o).build x y = Row.combine o x y) (x : Term) :
    Row.join (fun op => (known op).assoc) x ((op, y) :: ts) =
      if ∀ c ∈ ts, continues (known op).assoc (known c.1) = true then
        some (joinChain (known op).assoc x
          ((known op, y) :: ts.map fun c => (known c.1, c.2)))
      else none := by
  obtain ⟨left, right⟩ := joinChain_eq ((op, y) :: ts) faithful x
  rw [List.map_cons] at left right
  -- operators of different sides, or none, cannot agree on one
  have apart : ∀ {a b : Assoc}, a ≠ b →
      ¬(a = b ∧ ∀ c ∈ ts, (known c.1).assoc = b) :=
    fun differ both => differ both.1
  unfold Row.join
  simp only [List.forall_mem_cons]
  cases side : (known op).assoc with
  | left =>
      have notRight := apart (a := .left) (b := .right) (by simp)
      simp only [continues_iff .left (by simp)]
      by_cases all : ∀ c ∈ ts, (known c.1).assoc = .left
      · rw [if_pos ⟨trivial, all⟩, if_pos all, ← left]
        rfl
      · rw [if_neg fun h => all h.2, if_neg notRight, if_neg all]
        cases ts with
        | nil => exact absurd (List.forall_mem_nil _) all
        | cons => rfl
  | right =>
      have notLeft := apart (a := .right) (b := .left) (by simp)
      simp only [continues_iff .right (by simp)]
      rw [if_neg notLeft]
      by_cases all : ∀ c ∈ ts, (known c.1).assoc = .right
      · rw [if_pos ⟨trivial, all⟩, if_pos all, ← right]
        rfl
      · rw [if_neg fun h => all h.2, if_neg all]
        cases ts with
        | nil => exact absurd (List.forall_mem_nil _) all
        | cons => rfl
  | neither =>
      have notLeft := apart (a := .neither) (b := .left) (by simp)
      have notRight := apart (a := .neither) (b := .right) (by simp)
      rw [if_neg notLeft, if_neg notRight]
      cases ts with
      | nil =>
          have build := faithful op List.mem_cons_self x y
          rw [if_pos (List.forall_mem_nil _)]
          show some (Row.combine op x y) = some ((known op).build x y)
          rw [build]
      | cons c ts =>
          have stuck : ¬∀ d ∈ c :: ts,
              continues .neither (known d.1) = true :=
            fun all => by simpa [continues] using all c List.mem_cons_self
          rw [if_neg stuck]

/-- What a chain makes of an operator, its operand and the steps behind
is what the reference joins, if all the operands are there. -/
theorem bind_steps {op : String} {found : Option Term}
    {rest : List (String × Option Term)} (x : Term)
    (faithful : ∀ o ∈ op :: rest.map Prod.fst, ∀ x y,
      (known o).build x y = Row.combine o x y) :
    (found.bind fun y => (steps known (known op).assoc rest).bind fun ts =>
        some (joinChain (known op).assoc x ((known op, y) :: ts)))
      = (Row.collect ((op, found) :: rest)).bind
        (Row.join (fun op => (known op).assoc) x) := by
  rw [steps_eq, Row.collect]
  cases found with
  | none => rfl
  | some y =>
      cases all : Row.collect rest with
      | none => rfl
      | some ts =>
          rw [← Row.operators_of_collect all] at faithful
          simp only [Option.bind_some, Option.map_some]
          rw [join_cons faithful x]
          split <;> rfl

/-- A chain over pieces that are read or refused. -/
theorem chain_yields {first : Option Term}
    {rest : List (String × Option Term)}
    (start : Advances inp r operand i j first)
    (h : Follow inp (Advances inp r operand) j rest k)
    (has : ∀ op ∈ rest.map Prod.fst, level.has op = true)
    (faithful : level.Faithful)
    (stops : level.operator? (inp.tokenAt k).lexeme = none) :
    Yields inp r (chain level operand) i k
      (first.bind fun x => (Row.collect rest).bind
        (Row.join (fun op => (level.named op).assoc) x)) := by
  refine start.2.bind fun x => ?_
  cases h with
  | nil =>
      have alone : Yields inp r (pure x) j j (some x) := reads_pure x
      exact Yields.behind (reads_peekOperator stops) alone
  | @cons _ _ _ op found rest token next more =>
      rw [← bind_steps x fun o ho => faithful o (has o ho)]
      rw [List.map_cons, List.forall_mem_cons] at has
      refine Yields.behind (reads_peekOperator_named token has.1) ?_
      refine Yields.behind
        (reads_advance (kind_ne_eof_of_operator token)) ?_
      refine next.2.bind fun y => ?_
      have loop := loop_yields (level.named op).assoc more has.2 stops
      exact loop.bind fun ts => reads_pure _

/-- The nest of chains reads a row as it is grouped level by level, if
what follows the row is no operator of the levels. -/
theorem chains_yields : ∀ {levels : List Level},
    (∀ level ∈ levels, level.Faithful) → ∀ {row : Row} {i k : Nat},
    row.LaidOut inp (fun i j x => Advances inp r operand i j (some x)) i k →
    (∀ op ∈ row.operators, levels.any (·.has op) = true) →
    (∀ level ∈ levels, level.operator? (inp.tokenAt k).lexeme = none) →
    Yields inp r (chains operand levels) i k (row.groupOver levels) := by
  intro levels
  induction levels with
  | nil =>
      intro _ row i k laid bound _
      obtain ⟨j, first, rest⟩ := laid
      have none : row.operators = [] :=
        List.eq_nil_iff_forall_not_mem.2 fun op hop => by
          simpa using bound op hop
      have single : row.rest = [] := List.map_eq_nil_iff.1 none
      rw [single] at rest
      rw [Row.groupOver, if_pos single]
      cases rest
      exact first.2
  | cons level tighter ih =>
      intro faithful row i k laid bound stops
      rw [List.forall_mem_cons] at faithful stops
      obtain ⟨j, first, rest⟩ := laid
      obtain ⟨picked, cutting⟩ : ∃ picked : String → Bool,
          picked = fun op => !tighter.any (·.has op) := ⟨_, rfl⟩
      have progress : ∀ {i j x}, Advances inp r operand i j (some x) → i < j :=
        fun h => h.1
      obtain ⟨m, piece, others⟩ := Row.laidOut_cut picked rest first
      have members := Row.mem_operators_cut picked row.first row.rest
      have kept := Row.kept_of_mem_cut picked row.first row.rest
      have cuts := Row.picked_of_mem_cut picked row.first row.rest
      simp only [Row.groupOver, ← cutting]
      generalize Row.cut picked row.first row.rest = pieces
        at piece others members kept cuts ⊢
      have unbound : ∀ c ∈ pieces.2, tighter.any (·.has c.1) = false :=
        fun c hc => by simpa [cutting] using cuts c hc
      -- before a cut and at the end stands no operator of a tighter level
      have ends : ∀ j, (j = k ∨ ∃ c ∈ pieces.2,
          (inp.tokenAt j).lexeme = .operator c.1) →
          ∀ l ∈ tighter, l.operator? (inp.tokenAt j).lexeme = none := by
        rintro j (rfl | ⟨c, hc, token⟩)
        · exact stops.2
        · rw [token]
          exact Level.operator?_of_not_any (unbound c hc)
      have read : ∀ {piece : Row} {i j : Nat},
          piece.LaidOut inp (fun i j x => Advances inp r operand i j (some x))
            i j →
          (∀ op ∈ piece.operators, picked op = false) →
          (j = k ∨ ∃ c ∈ pieces.2,
            (inp.tokenAt j).lexeme = .operator c.1) →
          Advances inp r (chains operand tighter) i j
            (piece.groupOver tighter) := by
        intro piece i j laid kept last
        have bound : ∀ op ∈ piece.operators, tighter.any (·.has op) = true :=
          fun op hop => by simpa [cutting] using kept op hop
        exact ⟨laid.lt progress, ih faithful.2 laid bound (ends j last)⟩
      have more : Follow inp (Advances inp r (chains operand tighter)) m
          (pieces.2.map fun c => (c.1, c.2.groupOver tighter)) k :=
        others.map (Row.groupOver tighter) fun c hc i j laid last =>
          read laid (kept.2 c hc) last
      -- an operator that cuts the row is one of this level
      have here : ∀ op ∈ (pieces.2.map fun c =>
          (c.1, c.2.groupOver tighter)).map Prod.fst, level.has op = true := by
        intro op hop
        rw [List.map_map] at hop
        obtain ⟨c, hc, rfl⟩ := List.mem_map.1 hop
        have bound := bound c.1 ((members c.1).2 (.inr ⟨c, hc, .inl rfl⟩))
        rwa [List.any_cons, unbound c hc, Bool.or_false] at bound
      exact chain_yields (read piece kept.1 others.head) more here
        faithful.1 stops.1

end Grammar

end DepLang
