/-
Reading a term where it was printed. A place asks for a precedence, and
the grammar has a rule for each: atoms, operands, chains below the
arrow, and whole expressions. What is read by the rule of a tighter
place is read by that of a looser one too, if what follows cannot go on
with it; and a term in parentheses is read by all of them.

So it is enough to know how a term is read by the rule of its own
precedence (`Rereads`): with that it is read in every place, enclosed as
the place asks for.
-/
import DepLang.Proofs.Grammar.Forms
import DepLang.Proofs.Operators.Simple
import DepLang.Proofs.Printer.Canonical

namespace DepLang.Grammar

open DepLang.Parser DepLang.Term

-- ========================================================== lexemes

/-- The lexemes stand in the tokens from one cursor to another. -/
def Stands (inp : Input) : Nat → List Lexeme → Nat → Prop
  | i, [], j => i = j
  | i, l :: ls, j => (inp.tokenAt i).lexeme = l ∧ Stands inp (i + 1) ls j

section
variable {inp : Input} {i j k : Nat} {ls ms : List Lexeme}

theorem stands_append :
    Stands inp i (ls ++ ms) k
      ↔ ∃ j, Stands inp i ls j ∧ Stands inp j ms k := by
  induction ls generalizing i with
  | nil => simp [Stands]
  | cons l ls ih => simp [Stands, ih, and_assoc]

theorem Stands.le (h : Stands inp i ls j) : i ≤ j := by
  induction ls generalizing i with
  | nil => exact Nat.le_of_eq h
  | cons l ls ih => exact Nat.le_of_succ_le (ih h.2)

theorem Stands.stop (h : Stands inp i ls j) : j = i + ls.length := by
  induction ls generalizing i with
  | nil => exact h.symm
  | cons l ls ih =>
      rw [ih h.2, List.length_cons]
      omega

theorem Stands.lexeme (h : Stands inp i ls j) {l : Lexeme}
    (found : ls[k]? = some l) : (inp.tokenAt (i + k)).lexeme = l := by
  induction ls generalizing i k with
  | nil => cases found
  | cons m ls ih =>
      cases k with
      | zero =>
          cases found
          exact h.1
      | succ k =>
          have there := ih h.2 (by simpa using found)
          rwa [Nat.add_assoc, Nat.add_comm 1 k] at there

theorem Stands.of_holds {items : List Token} (holds : inp.Holds items) :
    ∀ {before after : List Token}, items = before ++ after →
      Stands inp before.length (after.map Token.lexeme) items.length := by
  intro before after
  induction after generalizing before with
  | nil =>
      intro whole
      rw [whole, List.append_nil]
      rfl
  | cons t after ih =>
      intro whole
      refine ⟨by rw [holds.tokenAt whole], ?_⟩
      have rest := @ih (before ++ [t]) (by rw [whole]; simp)
      rwa [List.length_append, List.length_singleton] at rest

end

-- ========================================================== places

section
variable (inp : Input) (r : Registry)

/-- The rule of a place reads the term. In the loosest place the
operands of an arrow are told apart, since a chain of arrows is read in
one go. -/
def Takes : Precedence → Nat → Nat → Term → Prop
  | .atom, i, j, t => Advances inp r (atom expr) i j (some t)
  | .application, i, j, t => Advances inp r (operand expr) i j (some t)
  | .operator, i, j, t =>
    Advances inp r (chains (operand expr) r.fixities.tighter) i j (some t)
  | .binder, i, j, t =>
    Arrows inp r (chains (operand expr) r.fixities.tighter) i j t

/-- The input is of the standard language, and all operators declared
are free there. -/
structure Ordinary : Prop where
  language : inp.language = .standard
  free : ∀ e ∈ r.fixities, IsFreeOperator e.symbol

end

/-- The lexeme cannot go on with what stands in the place before it. -/
def Stops (table : FixityTable) : Precedence → Lexeme → Prop
  | .atom, _ => True
  | .application, l => endsAtom l = true
  | .operator, l =>
    endsAtom l = true ∧ ∀ level ∈ table.tighter, level.operator? l = none
  | .binder, l =>
    endsAtom l = true
      ∧ (∀ level ∈ table.tighter, level.operator? l = none)
      ∧ Level.arrow.operator? l = none

/-- The lexemes that close an expression. -/
def isClosing : Lexeme → Bool
  | .eof _ => true
  | .mark m _ =>
    m == .rparen || m == .rbrace || m == .rbracket || m == .semicolon
  | .operator op => op == "=>" || op == ":" || op == "|"
  | .reserved word => word == "where"
  | _ => false

/-- Under a table without reserved operators they stop every place. -/
theorem stops_of_closing {table : FixityTable}
    (free : ∀ e ∈ table,
      Language.standard.isReservedOperator e.symbol = false)
    {l : Lexeme} (closing : isClosing l = true) :
    Stops table .binder l := by
  have ends : endsAtom l = true := by
    cases l with
    | mark m _ => cases m <;> first | rfl | cases closing
    | operator | eof => rfl
    | reserved word =>
        obtain rfl : word = "where" := by simpa [isClosing] using closing
        decide
    | _ => cases closing
  have operator : ∀ op, l = .operator op → op = "=>" ∨ op = ":" ∨ op = "|" := by
    rintro op rfl
    simpa [isClosing, or_assoc] using closing
  have tighter := FixityTable.operator?_none_of_reserved (l := l) free
    fun op same => by
      obtain rfl | rfl | rfl := operator op same <;> decide
  have arrow : Level.arrow.operator? l = none := by
    cases l with
    | operator op => obtain rfl | rfl | rfl := operator op rfl <;> rfl
    | _ => rfl
  exact ⟨ends, tighter, arrow⟩

section
variable {inp : Input} {r : Registry} {i j k : Nat} {t u : Term}

theorem Ordinary.noArrow (ordinary : Ordinary inp r) :
    ∀ e ∈ r.fixities, e.symbol ≠ "->" := by
  intro e he arrow
  have free := (ordinary.free e he).2
  rw [arrow] at free
  exact absurd free (by decide)

/-- Of the reserved operators only equality is found below the arrow. -/
theorem Ordinary.operator?_none (ordinary : Ordinary inp r) {l : Lexeme}
    (reserved : ∀ op, l = .operator op →
      Language.standard.isReservedOperator op = true ∧ op ≠ "=") :
    ∀ level ∈ r.fixities.tighter, level.operator? l = none :=
  FixityTable.operator?_none_of_reserved
    (fun e he => (ordinary.free e he).2) reserved

/-- A token that closes an expression stops it. -/
theorem Ordinary.stops_at (ordinary : Ordinary inp r) {l : Lexeme}
    (token : (inp.tokenAt i).lexeme = l) (closing : isClosing l = true) :
    Stops r.fixities .binder (inp.tokenAt i).lexeme := by
  rw [token]
  exact Grammar.stops_of_closing (fun e he => (ordinary.free e he).2) closing

/-- What stops a looser place stops a tighter one. -/
theorem Stops.tighten {table : FixityTable} {l : Lexeme}
    {place place' : Precedence} (h : Stops table place' l)
    (looser : place'.rank ≤ place.rank) : Stops table place l := by
  cases place with
  | atom => trivial
  | application =>
      cases place' with
      | atom => exact absurd looser (by decide)
      | application => exact h
      | operator | binder => exact h.1
  | operator =>
      cases place' with
      | operator => exact h
      | binder => exact ⟨h.1, h.2.1⟩
      | _ => exact absurd looser (by decide)
  | binder =>
      cases place' with
      | binder => exact h
      | _ => exact absurd looser (by decide)

/-- What a tighter place takes, a looser one takes before a lexeme that
stops it there. -/
theorem Takes.loosen {place place' : Precedence}
    (h : Takes inp r place i j t) (looser : place'.rank ≤ place.rank)
    (stops : Stops r.fixities place' (inp.tokenAt j).lexeme) :
    Takes inp r place' i j t := by
  have operand : endsAtom (inp.tokenAt j).lexeme = true →
      Takes inp r .atom i j t → Takes inp r .application i j t :=
    fun ends h => ⟨h.1, reads_operand_of_atom h.2 ends⟩
  have chain : (∀ level ∈ r.fixities.tighter,
      level.operator? (inp.tokenAt j).lexeme = none) →
      Takes inp r .application i j t → Takes inp r .operator i j t :=
    fun stops h => ⟨h.1, reads_chains_alone h.2 stops⟩
  cases place' with
  | atom =>
      cases place with
      | atom => exact h
      | _ => exact absurd looser (by decide)
  | application =>
      cases place with
      | atom => exact operand stops h
      | application => exact h
      | _ => exact absurd looser (by decide)
  | operator =>
      obtain ⟨ends, noOperator⟩ := stops
      cases place with
      | atom => exact chain noOperator (operand ends h)
      | application => exact chain noOperator h
      | operator => exact h
      | binder => exact absurd looser (by decide)
  | binder =>
      obtain ⟨ends, noOperator, -⟩ := stops
      cases place with
      | atom => exact .last (chain noOperator (operand ends h))
      | application => exact .last (chain noOperator h)
      | operator => exact .last h
      | binder => exact h

/-- The loosest place takes whole expressions. -/
theorem Takes.reads_expr (h : Takes inp r .binder i j t)
    (stops : Stops r.fixities .binder (inp.tokenAt j).lexeme) :
    i < j ∧ Reads inp r expr i j t := by
  obtain ⟨less, reads⟩ := Arrows.advances h stops.2.2
  refine ⟨less, Grammar.reads_expr ?_⟩
  rw [FixityTable.reverse_levels]
  exact reads

-- ======================================================== rereading

/-- Where its lexemes stand, the term is read by the rule of its
precedence, up to spans. -/
def Rereads (inp : Input) (r : Registry) (t : Term) : Prop :=
  ∀ i j, Stands inp i t.lexemes j →
    Stops r.fixities t.precedence (inp.tokenAt j).lexeme →
    ∃ u : Term, u.erase = t.erase ∧ Takes inp r t.precedence i j u

theorem Rereads.binder (h : Rereads inp r t)
    (stands : Stands inp i t.lexemes j)
    (stops : Stops r.fixities .binder (inp.tokenAt j).lexeme) :
    ∃ u : Term, u.erase = t.erase ∧ Takes inp r .binder i j u := by
  have looser : Precedence.binder.rank ≤ t.precedence.rank := Nat.zero_le _
  obtain ⟨u, same, takes⟩ := h i j stands (stops.tighten looser)
  exact ⟨u, same, takes.loosen looser stops⟩

theorem Rereads.expr (h : Rereads inp r t)
    (stands : Stands inp i t.lexemes j)
    (stops : Stops r.fixities .binder (inp.tokenAt j).lexeme) :
    ∃ u : Term, u.erase = t.erase ∧ i < j ∧ Reads inp r expr i j u := by
  obtain ⟨u, same, takes⟩ := h.binder stands stops
  exact ⟨u, same, takes.reads_expr stops⟩

/-- A term is read in every place, enclosed as the place asks for. -/
theorem Rereads.enclosed (ordinary : Ordinary inp r)
    (h : Rereads inp r t) (place : Precedence)
    (stands : Stands inp i (enclosed place t t.lexemes) j)
    (stops : Stops r.fixities place (inp.tokenAt j).lexeme) :
    ∃ u : Term, u.erase = t.erase ∧ Takes inp r place i j u := by
  unfold Term.enclosed at stands
  split at stands
  next loose =>
    obtain ⟨k, ⟨opening, inner⟩, closing, rfl⟩ := stands_append.1 stands
    obtain ⟨u, same, less, reads⟩ :=
      h.expr inner (ordinary.stops_at closing rfl)
    have next := not_free_of_reads reads
      (by rw [ordinary.language]; decide)
    have atom : Takes inp r .atom i (k + 1) u :=
      ⟨by omega, reads_atom_parens (kind_of_mark opening) next reads
        (kind_of_mark closing)⟩
    refine ⟨u, same, atom.loosen ?_ stops⟩
    cases place <;> decide
  next tight =>
    have looser := Nat.le_of_not_lt tight
    obtain ⟨u, same, takes⟩ := h i j stands (stops.tighten looser)
    exact ⟨u, same, takes.loosen looser stops⟩

/-- Between brackets, after a name and an operator, a term is read whole. -/
theorem Rereads.bracketed (ordinary : Ordinary inp r) (h : Rereads inp r t)
    {opening closing : Mark} {text symbol : String}
    (closes : isClosing (.ofMark closing) = true)
    (stands : Stands inp i ([.ofMark opening, .ident text,
      .operator symbol] ++ t.lexemes ++ [.ofMark closing]) k) :
    ∃ l, ∃ u : Term, k = l + 1 ∧ i < l ∧ u.erase = t.erase
      ∧ (inp.tokenAt i).lexeme = .ofMark opening
      ∧ (inp.tokenAt (i + 1)).lexeme = .ident text
      ∧ (inp.tokenAt (i + 1 + 1)).lexeme = .operator symbol
      ∧ Reads inp r Grammar.expr (i + 1 + 1 + 1) l u
      ∧ (inp.tokenAt l).lexeme = .ofMark closing := by
  obtain ⟨l, ⟨opens, target, sign, inner⟩, close, rfl⟩ :=
    stands_append.1 stands
  obtain ⟨u, same, less, reads⟩ :=
    h.expr inner (ordinary.stops_at close closes)
  exact ⟨l, u, rfl, by omega, same, opens, target, sign, reads, close⟩

end

end DepLang.Grammar
