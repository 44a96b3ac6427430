/-
Tables that can stand for each other. Two fixity tables may have
different numbers of levels and different entries, and still read an
input alike, if they count the operators that occur in it alike.

What carries this is where the parser of a chain can end: never before
an operator of its own level or of a tighter one (`chains_ok`). So a
level only ever looks at operators that no tighter level has, and for
these both tables agree (`FixityTable.operatorAt_eq`). Walking down the
keys of both tables, a key that only one of them has belongs to a level
that finds nothing to do, and at a key of both the two levels find the
same.
-/
import DepLang.Proofs.Operators.Counting

namespace DepLang

open DepLang.Parser

namespace Parser

variable {α : Type}

/-- Loops whose rounds are the same, from every state that a round can
start in, are the same. -/
theorem loopFrom_congr {next next' : Parser (Option α)} {inp : Input}
    (inside : State → Prop)
    (same : ∀ s, inside s → next inp s = next' inp s)
    (keep : ∀ s a t, inside s → next inp s = .ok (some a) t → inside t) :
    ∀ s, inside s → loopFrom next inp s = loopFrom next' inp s := by
  intro s
  fun_induction loopFrom next inp s with
  | case1 s t run =>
      intro h
      rw [loopFrom_apply, ← same s h, run]
  | case2 s a t run less as u more ih =>
      intro h
      have rest := ih (keep s a t h run)
      rw [loopFrom_apply next', ← same s h, run]
      simp only [if_pos less, ← rest, more]
  | case3 s a t run less other ih =>
      intro h
      have rest := ih (keep s a t h run)
      rw [loopFrom_apply next', ← same s h, run]
      simp only [if_pos less, ← rest]
  | case4 s a t run stuck =>
      intro h
      rw [loopFrom_apply, ← same s h, run]
      simp only [if_neg stuck]
  | case5 s e t run | case6 s d t run =>
      intro h
      rw [loopFrom_apply, ← same s h, run]

end Parser

namespace Grammar

variable {inp : Input} {operand operand' : Parser Term}
  {level level' : Level} {s t : State} {x : Term}

-- ======================================================== one chain

/-- The operator of the level that a state stands at. -/
def offered (level : Level) (inp : Input) (s : State) : Option Operator :=
  level.operator? (inp.tokenAt s.cursor).lexeme

theorem peekOperator_bind {β : Type} (f : Option Operator → Parser β) :
    (peekOperator level >>= f) inp s = f (offered level inp s) inp s :=
  rfl

theorem advance_bind {β : Type} (f : Token → Parser β) :
    (advance >>= f) inp s = f (inp.tokenAt s.cursor) inp (past inp s) :=
  rfl

/-- One step of a chain: the operator that is offered, if the chain can
take it, with an operand. -/
theorem chainStep_apply (assoc : Assoc) :
    chainStep level assoc operand inp s =
      match offered level inp s with
      | none => .ok none s
      | some op =>
        if continues assoc op then
          match operand inp (past inp s) with
          | .ok y t => .ok (some (op, y)) t
          | .error e t => .error e t
          | .defect d t => .defect d t
        else failWith (some (.ambiguous op.assoc)) [] inp s := by
  unfold chainStep
  rw [peekOperator_bind]
  cases offered level inp s with
  | none => rfl
  | some op =>
      simp only
      split
      · rw [advance_bind, bind_apply]
        cases operand inp (past inp s) <;> rfl
      · rfl

/-- A chain: an operand, and if an operator of the level is offered, its
operand and the steps after it. -/
theorem chain_apply :
    chain level operand inp s =
      match operand inp s with
      | .ok x t =>
        match offered level inp t with
        | none => .ok x t
        | some op =>
          match operand inp (past inp t) with
          | .ok y u =>
            match loop (chainStep level op.assoc operand) inp u with
            | .ok rest v => .ok (joinChain op.assoc x ((op, y) :: rest)) v
            | .error e v => .error e v
            | .defect d v => .defect d v
          | .error e u => .error e u
          | .defect d u => .defect d u
      | .error e t => .error e t
      | .defect d t => .defect d t := by
  unfold chain
  rw [bind_apply]
  cases operand inp s with
  | ok x t =>
      simp only
      rw [peekOperator_bind]
      cases offered level inp t with
      | none => rfl
      | some op =>
          simp only
          rw [advance_bind, bind_apply]
          cases operand inp (past inp t) with
          | ok y u =>
              simp only
              rw [bind_apply]
              cases loop (chainStep level op.assoc operand) inp u <;> rfl
          | error e u => rfl
          | defect d u => rfl
  | error e t => rfl
  | defect d t => rfl

/-- A state that a run of the operand can end in. -/
def Ends (operand : Parser Term) (inp : Input) (t : State) : Prop :=
  ∃ s x, operand inp s = .ok x t

/-- A step of a chain ends where its operand does. -/
theorem operand_of_chainStep {assoc : Assoc} {step : Operator × Term}
    (h : chainStep level assoc operand inp s = .ok (some step) t) :
    operand inp (past inp s) = .ok step.2 t := by
  rw [chainStep_apply] at h
  split at h
  · cases h
  · split at h
    · split at h <;> cases h
      next run => exact run
    · cases h

theorem ends_of_chainStep {assoc : Assoc} {step : Operator × Term}
    (h : chainStep level assoc operand inp s = .ok (some step) t) :
    Ends operand inp t :=
  ⟨_, _, operand_of_chainStep h⟩

/-- Equal operands, and levels that offer the same wherever these can
end, make the same chains. -/
theorem chain_congr (equal : ∀ s, operand inp s = operand' inp s)
    (same : ∀ t, Ends operand inp t →
      offered level inp t = offered level' inp t) (s : State) :
    chain level operand inp s = chain level' operand' inp s := by
  have loops (assoc : Assoc) (u : State) (ends : Ends operand inp u) :
      loop (chainStep level assoc operand) inp u
        = loop (chainStep level' assoc operand') inp u := by
    refine loopFrom_congr (Ends operand inp) ?_ ?_ u ends
    · intro s ends
      rw [chainStep_apply, chainStep_apply, same s ends, equal]
    · exact fun _ _ _ _ => ends_of_chainStep
  rw [chain_apply, chain_apply, ← equal]
  cases run : operand inp s with
  | ok x t =>
      simp only [← same t ⟨s, x, run⟩, ← equal]
      cases offered level inp t with
      | none => rfl
      | some op =>
          cases run : operand inp (past inp t) with
          | ok y u => simp only [loops op.assoc u ⟨_, _, run⟩]
          | error e u => rfl
          | defect d u => rfl
  | error e t => rfl
  | defect d t => rfl

/-- A level that offers nothing where the operand can end adds nothing
to it. -/
theorem chain_idle (idle : ∀ t, Ends operand inp t →
    offered level inp t = none) (s : State) :
    chain level operand inp s = operand inp s := by
  rw [chain_apply]
  cases run : operand inp s with
  | ok x t => simp only [idle t ⟨s, x, run⟩]
  | error e t => rfl
  | defect d t => rfl

-- ================================================ where chains end

/-- An operator is offered at a token of its own. -/
theorem kind_of_offered {op : Operator}
    (found : offered level inp s = some op) :
    (inp.tokenAt s.cursor).kind ≠ .eof := by
  intro ended
  unfold offered Level.operator? at found
  split at found
  next symbol token =>
    rw [Token.kind, token] at ended
    cases ended
  · cases found

/-- An operator that was read is a token less. -/
theorem remaining_lt_of_chainStep (steady : Steady operand)
    {assoc : Assoc} {step : Operator × Term}
    (h : chainStep level assoc operand inp s = .ok (some step) t) :
    inp.remaining t < inp.remaining s := by
  rw [chainStep_apply] at h
  split at h
  · cases h
  next op found =>
    split at h
    · split at h <;> cases h
      next run =>
        have later := (steady inp (past inp s)).remaining_le inp
        rw [run] at later
        have less := remaining_past_lt (kind_of_offered found)
        exact Nat.lt_of_le_of_lt later less
    · cases h

/-- The loop of a chain ends where its operand can, and where the level
offers nothing. -/
theorem loop_ends (steady : Steady operand) {assoc : Assoc}
    {rest : List (Operator × Term)} :
    ∀ {s}, Ends operand inp s →
      loop (chainStep level assoc operand) inp s = .ok rest t →
      Ends operand inp t ∧ offered level inp t = none := by
  intro s ends h
  replace h := rounds_of_loop h
  induction h with
  | none run =>
      rw [chainStep_apply] at run
      split at run
      next none => cases run; exact ⟨ends, none⟩
      · split at run
        · split at run <;> cases run
        · cases run
  | last run stuck =>
      exact absurd (remaining_lt_of_chainStep steady run) stuck
  | more run _ _ ih => exact ih (ends_of_chainStep run)

/-- A chain ends where its operand can, and not before an operator of
its level. -/
theorem chain_ends (steady : Steady operand)
    (h : chain level operand inp s = .ok x t) :
    Ends operand inp t ∧ offered level inp t = none := by
  rw [chain_apply] at h
  split at h
  next run =>
    split at h
    next none =>
      cases h
      exact ⟨⟨_, _, run⟩, none⟩
    next op found =>
      split at h
      next run' =>
        split at h <;> cases h
        next rest _ looped => exact loop_ends steady ⟨_, _, run'⟩ looped
      · cases h
      · cases h
  · cases h
  · cases h

/-- An expression over levels never ends before an operator of any of
them. -/
theorem chains_ok (steady : ∀ levels, Steady (chains operand levels))
    {levels : List Level} :
    ∀ {s x t}, chains operand levels inp s = .ok x t →
      ∀ level ∈ levels, offered level inp t = none := by
  induction levels with
  | nil => exact fun _ => List.forall_mem_nil _
  | cons level tighter ih =>
      intro s x t h
      obtain ⟨⟨s', x', run⟩, here⟩ := chain_ends (steady tighter) h
      exact List.forall_mem_cons.2 ⟨here, ih run⟩

end Grammar

-- ======================================================= two tables

namespace FixityTable

open Grammar

variable {table table' : FixityTable} {low key key' : Nat}
  {keys keys' : List Nat} {level level' : Level}
  {levels levels' : List Level} {inp : Input} {operand : Parser Term}

/-- The levels of all keys from a bound on. -/
structure RankedFrom (table : FixityTable) (low : Nat) (keys : List Nat)
    (levels : List Level) : Prop extends Ranked table keys levels where
  bounded : ∀ key ∈ keys, low ≤ key
  complete : ∀ key op, low ≤ key → table.operatorAt key op ≠ none →
    key ∈ keys

/-- Without the first key, all keys above it. -/
theorem RankedFrom.tail
    (h : RankedFrom table low (key :: keys) (level :: levels)) :
    RankedFrom table (key + 1) keys levels where
  operators := (List.forall₂_cons.1 h.operators).2
  increasing := (List.pairwise_cons.1 h.increasing).2
  bounded := (List.pairwise_cons.1 h.increasing).1
  complete := by
    intro k op above known
    have least := h.bounded key List.mem_cons_self
    rcases List.mem_cons.1 (h.complete k op (by omega) known) with rfl | hk
    · omega
    · exact hk

/-- A bound below all keys may as well be just below them. -/
theorem RankedFrom.raise (h : RankedFrom table low keys levels)
    {bound : Nat} (le : low ≤ bound) (above : ∀ k ∈ keys, bound ≤ k) :
    RankedFrom table bound keys levels where
  toRanked := h.toRanked
  bounded := above
  complete := fun k op hk => h.complete k op (Nat.le_trans le hk)

/-- All keys are at least the first. -/
theorem RankedFrom.above (h : RankedFrom table low (key :: keys) levels)
    (less : key' < key) : ∀ k ∈ key :: keys, key' < k := by
  refine List.forall_mem_cons.2 ⟨less, fun k hk => ?_⟩
  exact Nat.lt_trans less ((List.pairwise_cons.1 h.increasing).1 k hk)

/-- Where an expression over the levels ends, the table knows no key
from the bound on for the operator there. -/
theorem RankedFrom.unknown (h : RankedFrom table low keys levels)
    {t : State} (ended : ∀ level ∈ levels, offered level inp t = none)
    {op : String} (token : (inp.tokenAt t.cursor).lexeme = .operator op) :
    ∀ k, low ≤ k → table.operatorAt k op = none := by
  intro k above
  by_contra known
  have listed := h.complete k op above known
  obtain ⟨level, hlevel, has⟩ := List.any_eq_true.1
    ((Row.any_has_iff h.operators).2 ⟨k, listed, known⟩)
  have none := ended level hlevel
  rw [offered, token] at none
  rw [Level.has, none] at has
  cases has

/-- The operators that occur in the input count alike in both tables. -/
def CountAlike (inp : Input) (table table' : FixityTable) : Prop :=
  ∀ i op, (inp.tokenAt i).lexeme = .operator op →
    table.fixityOf op = table'.fixityOf op

theorem CountAlike.symm (h : CountAlike inp table table') :
    CountAlike inp table' table :=
  fun i op token => (h i op token).symm

section
variable (steady : ∀ levels, Steady (chains operand levels))
  (same : CountAlike inp table table')
include steady same

/-- Where expressions over the tighter levels of both tables end, the
tables make the same of the operator there. -/
theorem operatorAt_eq_of_ends
    (h : RankedFrom table (key + 1) keys levels)
    (h' : RankedFrom table' (key + 1) keys' levels')
    (rest : ∀ s, chains operand levels inp s = chains operand levels' inp s)
    {t : State} (ends : Ends (chains operand levels) inp t) {op : String}
    (token : (inp.tokenAt t.cursor).lexeme = .operator op) :
    table.operatorAt key op = table'.operatorAt key op := by
  obtain ⟨s, x, run⟩ := ends
  have run' := run
  rw [rest] at run'
  exact operatorAt_eq (same _ op token)
    (h.unknown (chains_ok steady run) token)
    (h'.unknown (chains_ok steady run') token)

/-- A level whose key the other table does not have is idle. -/
theorem chains_skip
    (h : RankedFrom table low (key :: keys) (level :: levels))
    (h' : RankedFrom table' low keys' levels')
    (above : ∀ k ∈ keys', key < k)
    (rest : ∀ s, chains operand levels inp s = chains operand levels' inp s)
    (s : State) :
    chains operand (level :: levels) inp s = chains operand levels' inp s := by
  have least := h.bounded key List.mem_cons_self
  have makes := (List.forall₂_cons.1 h.operators).1
  rw [← rest]
  refine chain_idle (fun t ends => ?_) s
  unfold offered
  cases token : (inp.tokenAt t.cursor).lexeme with
  | operator op =>
      rw [makes, operatorAt_eq_of_ends steady same h.tail
        (h'.raise (Nat.le_succ_of_le least) above) rest ends token]
      by_contra known
      exact Nat.lt_irrefl key (above key (h'.complete key op least known))
  | _ => rfl

/-- Levels of one key are the same to the parser of a chain. -/
theorem chains_both
    (h : RankedFrom table low (key :: keys) (level :: levels))
    (h' : RankedFrom table' low (key :: keys') (level' :: levels'))
    (rest : ∀ s, chains operand levels inp s = chains operand levels' inp s)
    (s : State) :
    chains operand (level :: levels) inp s
      = chains operand (level' :: levels') inp s := by
  have makes := (List.forall₂_cons.1 h.operators).1
  have makes' := (List.forall₂_cons.1 h'.operators).1
  refine chain_congr rest (fun t ends => ?_) s
  unfold offered
  cases token : (inp.tokenAt t.cursor).lexeme with
  | operator op =>
      rw [makes, makes', operatorAt_eq_of_ends steady same h.tail h'.tail
        rest ends token]
  | _ => rfl

end

/-- Tables that count the operators of an input alike have levels that
read it alike. -/
theorem chains_exchange
    (steady : ∀ levels, Steady (chains operand levels)) :
    ∀ {keys keys' : List Nat} {table table' : FixityTable} {low : Nat}
      {levels levels' : List Level}, CountAlike inp table table' →
      RankedFrom table low keys levels →
      RankedFrom table' low keys' levels' → ∀ s,
      chains operand levels inp s = chains operand levels' inp s := by
  intro keys
  induction keys with
  | nil =>
      intro keys'
      induction keys' with
      | nil =>
          intro table table' low levels levels' same h h' s
          cases h.operators
          cases h'.operators
          rfl
      | cons key' keys' ih =>
          intro table table' low levels levels' same h h' s
          cases h'.operators
          have least := h'.bounded key' List.mem_cons_self
          have above : ∀ k ∈ [], key' < k := List.forall_mem_nil _
          have rest := ih same
            (h.raise (Nat.le_succ_of_le least) above) h'.tail
          exact (chains_skip steady same.symm h' h above
            (fun s => (rest s).symm) s).symm
  | cons key keys ih =>
      intro keys'
      induction keys' with
      | nil =>
          intro table table' low levels levels' same h h' s
          cases h.operators
          have least := h.bounded key List.mem_cons_self
          have above : ∀ k ∈ [], key < k := List.forall_mem_nil _
          exact chains_skip steady same h h' above
            (ih same h.tail (h'.raise (Nat.le_succ_of_le least) above)) s
      | cons key' keys' ih' =>
          intro table table' low levels levels' same h h' s
          cases h.operators
          cases h'.operators
          have least := h.bounded key List.mem_cons_self
          have least' := h'.bounded key' List.mem_cons_self
          rcases Nat.lt_trichotomy key key' with less | rfl | less
          · have above := h'.above less
            exact chains_skip steady same h h' above
              (ih same h.tail (h'.raise (Nat.le_succ_of_le least) above)) s
          · exact chains_both steady same h h' (ih same h.tail h'.tail) s
          · have above := h.above less
            have rest := ih' same
              (h.raise (Nat.le_succ_of_le least') above) h'.tail
            exact (chains_skip steady same.symm h' h above
              (fun s => (rest s).symm) s).symm

/-- The same of all the levels of sorted tables. -/
theorem chains_levels_eq
    (steady : ∀ levels, Steady (chains operand levels))
    (sorted : table.Sorted) (sorted' : table'.Sorted)
    (same : CountAlike inp table table') (s : State) :
    chains operand table.levels.reverse inp s
      = chains operand table'.levels.reverse inp s := by
  obtain ⟨keys, ranked, complete⟩ := levels_ranked sorted
  obtain ⟨keys', ranked', complete'⟩ := levels_ranked sorted'
  have from_zero : RankedFrom table 0 keys table.levels.reverse :=
    ⟨ranked, fun _ _ => Nat.zero_le _, fun k op _ => complete k op⟩
  have from_zero' : RankedFrom table' 0 keys' table'.levels.reverse :=
    ⟨ranked', fun _ _ => Nat.zero_le _, fun k op _ => complete' k op⟩
  exact chains_exchange steady same from_zero from_zero' s

end FixityTable

end DepLang
