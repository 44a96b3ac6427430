/-
Atoms wherever they stand. What follows an atom does not matter, for it
ends by itself, and neither does what stands in front of it; so the
lexemes of an atom are read as the same atom, up to spans, in every
input of the language and under every registry of the same operators
(`AtomOf`).

Where several atoms stand one after another they are read as the
arguments of a constructor, or as a head and what it is applied to; and
with arrows between them as the type of a function. What is built from
the atoms, the other way round, has the same outline.
-/
import DepLang.Proofs.Grammar.Enacted
import DepLang.Proofs.Grammar.Framed

namespace DepLang

open DepLang.Grammar DepLang.Parser DepLang.Term

namespace Grammar

/-- The lexemes of an atom: wherever they stand it is read, under the
operators of the table. -/
def AtomOf (table : FixityTable) (ls : List Lexeme) (t : Term) : Prop :=
  ∀ inp r i j, inp.language = .standard → r.fixities = table →
    Stands inp i ls j → Carries inp r (atom expr) i j t

section
variable {table : FixityTable} {inp : Input} {r : Registry}
  {ls : List Lexeme} {t : Term} {n : Nat}

-- ============================================================ atoms

theorem atomOf_word (text : String) :
    AtomOf table [.ident text] (.ref (.ofText text) none) := by
  rintro inp r i _ - - ⟨token, rfl⟩
  exact carries_of (reads_atom_ident token) rfl

theorem atomOf_operator {op : String}
    (free : Language.standard.isReservedOperator op = false) :
    AtomOf table [.ofMark .lparen, .operator op, .ofMark .rparen]
      (.ref (.ofText op) none) := by
  rintro inp r i _ standard - ⟨opening, token, closing, rfl⟩
  rw [← standard] at free
  exact carries_of (reads_atom_operator (kind_of_mark opening) token free
    (kind_of_mark closing)) rfl

theorem atomOf_set : AtomOf table [.reserved "Set"] (.set none) := by
  rintro inp r i _ - - ⟨token, rfl⟩
  exact carries_of (reads_atom_set token) rfl

/-- What is read as an atom in one place is that atom in all of them. -/
theorem atomOf_of_reads (standard : inp.language = .standard)
    (free : ∀ e ∈ r.fixities,
      Language.standard.isReservedOperator e.symbol = false)
    (stands : Stands inp 0 ls n) (h : Reads inp r (atom expr) 0 n t) :
    AtomOf r.fixities ls t := by
  intro long r' i j standard' table there
  have length : n = ls.length := by
    rw [stands.stop, Nat.zero_add]
  have same : inp.SameBefore (long.drop i) n := by
    refine ⟨standard.trans standard'.symm, fun k less => ?_⟩
    rw [length] at less
    have found := List.getElem?_eq_getElem less
    rw [Input.tokenAt_drop, there.lexeme found, ← stands.lexeme found,
      Nat.zero_add]
  have less := lt_of_reads_atom h
  have room : i ≤ long.tokens.size := by
    have starts := startsAtom_of_reads h
    rw [same.lexeme 0 less, Input.tokenAt_drop] at starts
    exact Nat.le_of_lt (lt_size_of_kind (kind_of_startsAtom starts).1)
  obtain ⟨u, agree, read⟩ :=
    carries_whole_atom standard same free table (Nat.le_refl n) h
  obtain ⟨v, agree', read'⟩ := atom_runsAlike.carries plain_atom
    (Input.standsAt_drop room) read
  rw [length, Nat.add_zero, ← there.stop] at read'
  exact carries_of read' (agree'.trans agree)

end

-- ==================================================== applications

section
variable {inp : Input} {r : Registry} {i j : Nat}
  (standard : inp.language = .standard)
  {ι : Type} {xs : List ι} {text : ι → List Lexeme} {term : ι → Term}
  (each : ∀ x ∈ xs, AtomOf r.fixities (text x) (term x))
include standard each

/-- Atoms one after another, up to where no other follows. -/
theorem reads_atoms (stands : Stands inp i (xs.flatMap text) j)
    (ends : endsAtom (inp.tokenAt j).lexeme = true) :
    ∃ us, eraseAll us = eraseAll (xs.map term)
      ∧ Reads inp r (many (atom expr)) i j us := by
  refine reads_each (fun x hx k l here => ?_) stands
    (refuses_atom (endsAtom_iff.1 ends).1)
  obtain ⟨u, same, reads⟩ := each x hx inp r k l standard rfl here
  exact ⟨u, same, lt_of_reads_atom reads,
    (kind_of_startsAtom (startsAtom_of_reads reads)).1, reads⟩

/-- A head applied to what follows it, if anything does. -/
theorem takes_applied {head : List Lexeme} {fn : Term}
    (first : AtomOf r.fixities head fn)
    (stands : Stands inp i (head ++ xs.flatMap text) j)
    (ends : endsAtom (inp.tokenAt j).lexeme = true) :
    ∃ u : Term, u.erase = (applied fn (xs.map term)).erase
      ∧ Takes inp r .application i j u := by
  obtain ⟨k, here, rest⟩ := stands_append.1 stands
  obtain ⟨u, same, reads⟩ := first inp r i k standard rfl here
  have less := lt_of_reads_atom reads
  cases xs with
  | nil =>
      obtain rfl : k = j := rest
      exact ⟨u, same, less, reads_operand_of_atom reads ends⟩
  | cons x xs =>
      rw [List.flatMap_cons] at rest
      obtain ⟨l, second, rest⟩ := stands_append.1 rest
      obtain ⟨v, same', reads'⟩ :=
        each x List.mem_cons_self inp r k l standard rfl second
      obtain ⟨us, sames, more⟩ := reads_atoms standard
        (fun y hy => each y (List.mem_cons_of_mem _ hy)) rest ends
      have noNamed : Refuses inp r (namedArgument expr) k :=
        refuses_namedArgument
          (kind_of_startsAtom (startsAtom_of_reads reads')).2
      have := lt_of_reads_atom reads'
      have := plain_atom.many.le more
      refine ⟨_, ?_, by omega, reads_application reads
        (reads_many_nil noNamed) (Reads.many1 reads' more)⟩
      rw [List.map_cons, applied, erase, erase, eraseAll, eraseAll, same,
        same', sames]
      exact fun h => by cases h

-- ========================================================== arrows

/-- Atoms with arrows behind them, and what the last arrow leads to. -/
theorem takes_arrows (free : ∀ e ∈ r.fixities,
      Language.standard.isReservedOperator e.symbol = false)
    {result : List Lexeme} {t : Term}
    (last : ∀ k, Stands inp k result j →
      ∃ u : Term, u.outline = t.outline ∧ Takes inp r .binder k j u)
    (stands : Stands inp i
      (xs.flatMap (fun x => text x ++ [.operator "->"]) ++ result) j) :
    ∃ u : Term, u.outline
        = (arrows argumentBinder (xs.map term) t).outline
      ∧ Takes inp r .binder i j u := by
  induction xs generalizing i with
  | nil => exact last i stands
  | cons x xs ih =>
      rw [List.flatMap_cons, List.append_assoc, List.append_assoc] at stands
      obtain ⟨k, here, arrow, rest⟩ := stands_append.1 stands
      obtain ⟨u, same, reads⟩ :=
        each x List.mem_cons_self inp r i k standard rfl here
      obtain ⟨v, sames, more⟩ :=
        ih (fun y hy => each y (List.mem_cons_of_mem _ hy)) rest
      have before : Stops r.fixities .operator (inp.tokenAt k).lexeme := by
        rw [arrow]
        refine ⟨rfl, FixityTable.operator?_none_of_reserved free ?_⟩
        rintro op same
        cases same
        decide
      have atom : Takes inp r .atom i k u := ⟨lt_of_reads_atom reads, reads⟩
      refine ⟨Row.combine "->" u v, ?_,
        .cons (atom.loosen (by decide) before) arrow more⟩
      have step : arrows argumentBinder ((x :: xs).map term) t
          = .pi .explicit argumentBinder (term x)
            (arrows argumentBinder (xs.map term) t) none := rfl
      rw [Row.combine, if_pos rfl, step, outline, outline,
        outline_congr same, sames]
      rfl

end

end Grammar

end DepLang
