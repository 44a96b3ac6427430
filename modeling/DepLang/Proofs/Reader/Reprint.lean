/-
Reading what was printed of what was read. The term that a text spells
is printed as a text that spells it again, up to spans, as long as its
infix operators are declared and no head of an application prints as an
application: what is read is canonical then
(`Reading.reprints_of_readTerm`).

The second condition is needed. The printer leaves out the parentheses
of such a head, and what it prints spells another term, or none.
-/
import DepLang.Proofs.Grammar.Canonical
import DepLang.Proofs.Printer.Roundtrip

namespace DepLang

open DepLang.Parser

namespace Reading

variable {filename text : String} {r : Registry}

/-- The words, operators and numbers of a text's input are such by
themselves. -/
theorem spelled_inputOf {items : List Token} {span : Span}
    (scans : Lexer.tokenize .standard text filename
      = .ok (items ++ [⟨.eof "", span⟩])) :
    (inputOf items ⟨.eof "", span⟩ .standard filename text).Spelled := by
  refine ⟨rfl, fun i word => ?_, fun i symbol => ?_, fun i n => ?_⟩
  · exact (Lexer.lone_of_mem_tokenize scans
      (Input.tokenAt_mem rfl i)).1 word
  · exact (Lexer.lone_of_mem_tokenize scans
      (Input.tokenAt_mem rfl i)).2 symbol
  · exact Lexer.short_of_mem_tokenize scans (Input.tokenAt_mem rfl i)

/-- What a reading was checked to find, it finds. -/
theorem found_of_checked {α : Type} (reading : Reading α)
    (P : α → Prop) [DecidablePred P]
    (checked : (reading.outcome.toOption.any fun a => P a) = true) :
    ∃ a, reading.outcome = .ok a ∧ P a := by
  cases read : reading.outcome with
  | error stop =>
      rw [read] at checked
      cases checked
  | ok a =>
      rw [read] at checked
      exact ⟨a, rfl, of_decide_eq_true checked⟩

/-- A term that is read is canonical, up to the conditions. -/
theorem reprints_of_readTerm {t : Term}
    (read : (readTerm .standard filename text r).outcome = .ok t) :
    t.Reprints r.fixities := by
  unfold readTerm at read
  cases scans : Lexer.tokenize .standard text filename with
  | error e =>
      rw [ofText, scans] at read
      cases read
  | ok tokens =>
      obtain ⟨items, span, rfl⟩ := Lexer.tokenize_ends scans
      rw [ofText_eq scans rfl] at read
      cases run : Grammar.wholeExpr
          (inputOf items ⟨.eof "", span⟩ .standard filename text)
          { registry := r } with
      | ok u s =>
          rw [run] at read
          cases read
          exact (Grammar.wholeExpr_finds (spelled_inputOf scans)
            (Term.reprints_forms _) _ _ _ rfl run).1
      | error e s | defect d s =>
          rw [run] at read
          cases read

end Reading

/-- What is printed of a term that was read spells it again, if its
infix operators are equality or declared, and no head of an application
prints as an application. -/
theorem readTerm_print_of_readTerm (filename filename' text : String)
    (r : Registry) (free : ∀ e ∈ r.fixities, IsFreeOperator e.symbol)
    (t : Term)
    (read : (readTerm .standard filename text r).outcome = .ok t)
    (declared : ∀ u ∈ t.subterms, u.InfixDeclared r.fixities)
    (apart : ∀ u ∈ t.subterms, u.HeadApart) :
    ∃ u, (readTerm .standard filename' t.print r).outcome = .ok u
      ∧ u.sameShape t = true := by
  have canonical : t.Canonical r.fixities :=
    Reading.reprints_of_readTerm read fun u hu =>
      ⟨declared u hu, apart u hu⟩
  obtain ⟨u, again, shape⟩ := canonical.reread filename' free
  exact ⟨u, again, (Term.sameShape_iff u t).2 shape⟩

/-- A text with more parentheses than its term needs, and with a head and
operands that do need theirs. -/
theorem readTerm_print_of_readTerm_parens :
    let r : Registry := { fixities := [⟨⟨.left, 6⟩, "+"⟩] }
    let text :=
      "(\\x : _ => (x) + (x + a)) (f \x7by = (b)\x7d (g c)) -> (_ = Set)"
    ∃ t u, (readTerm .standard "m" text r).outcome = .ok t
      ∧ t.print
        = "(\\x => x + (x + a)) (f \x7by = b\x7d (g c)) -> _ = Set"
      ∧ (readTerm .standard "n" t.print r).outcome = .ok u
      ∧ u.sameShape t = true := by
  intro r text
  have free : ∀ e ∈ r.fixities, IsFreeOperator e.symbol := by
    decide +kernel
  obtain ⟨t, read, text', declared, apart⟩ := Reading.found_of_checked
    (readTerm .standard "m" text r)
    (fun t =>
      t.print = "(\\x => x + (x + a)) (f \x7by = b\x7d (g c)) -> _ = Set"
        ∧ (∀ u ∈ t.subterms, u.InfixDeclared r.fixities)
        ∧ ∀ u ∈ t.subterms, u.HeadApart)
    (by decide +kernel)
  obtain ⟨u, again, same⟩ := readTerm_print_of_readTerm "m" "n" text r
    free t read declared apart
  exact ⟨t, u, read, text', again, same⟩

/-- An application whose head is an application in parentheses is printed
without them, and so spells an application to all the arguments; if it
has arguments given by name, it spells no term at all. -/
theorem readTerm_print_nested_head :
    (∃ t u, (readTerm .standard "m" "(f a) b" {}).outcome = .ok t
        ∧ (∀ v ∈ t.subterms, v.InfixDeclared [])
        ∧ t.print = "f a b"
        ∧ (readTerm .standard "m" t.print {}).outcome = .ok u
        ∧ u.sameShape t = false)
      ∧ ∃ t, (readTerm .standard "m" "(f a) \x7bx = b\x7d c" {}).outcome
          = .ok t
        ∧ (∀ v ∈ t.subterms, v.InfixDeclared [])
        ∧ t.print = "f a \x7bx = b\x7d c"
        ∧ (readTerm .standard "m" t.print {}).Fails := by
  constructor
  · obtain ⟨t, read, declared, text, again⟩ := Reading.found_of_checked
      (readTerm .standard "m" "(f a) b" {})
      (fun t => (∀ v ∈ t.subterms, v.InfixDeclared [])
        ∧ t.print = "f a b"
        ∧ ((readTerm .standard "m" t.print {}).outcome.toOption.any
          fun u => u.sameShape t = false) = true)
      (by decide +kernel)
    obtain ⟨u, again, flat⟩ := Reading.found_of_checked
      (readTerm .standard "m" t.print {}) (fun u => u.sameShape t = false)
      again
    exact ⟨t, u, read, declared, text, again, flat⟩
  · exact Reading.found_of_checked
      (readTerm .standard "m" "(f a) \x7bx = b\x7d c" {})
      (fun t => (∀ v ∈ t.subterms, v.InfixDeclared [])
        ∧ t.print = "f a \x7bx = b\x7d c"
        ∧ (readTerm .standard "m" t.print {}).Fails)
      (by decide +kernel)

end DepLang
