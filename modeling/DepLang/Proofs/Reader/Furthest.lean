/-
What a reading reports of the failures it met. A text that scans can
fail in many places before it fails for good: alternatives are given up,
repetitions stop, a longer form is tried before a shorter one. All these
failures are met at tokens, and the one reported sums them up: it stands
where the furthest of them stand, and expects what was expected there by
any of them, each thing once (`Reading.ReportsFurthest`).

Which failures those are is not read off what the reading keeps, but off
the run of the grammar (`Parser.Meets`). Two ways lead to what is
reported. Choices merge what their alternatives fail with, which ends in
a failure merged from some of those met, though maybe not from the
furthest; and the state keeps the furthest of all, which takes the other
in at the end (`State.covers_report`).
-/
import DepLang.Proofs.Grammar.Inside
import DepLang.Proofs.Reader.Whole

namespace DepLang

open DepLang.Parser

-- ========================================================= grammar

namespace Grammar

variable {inp : Input}

theorem eof_accountable : Accountable inp eof := by
  refine (accountable_ask _).bind fun ended => ?_
  cases ended with
  | true => exact accountable_pure ()
  | false => exact accountable_fail _

theorem wholeExpr_accountable : Accountable inp wholeExpr :=
  (expr_accountable inp).bind fun _ => eof_accountable.bind fun _ =>
    accountable_pure _

theorem declaration_accountable : Accountable inp declaration := by
  have inside : Inside expr True false declaration := declaration_inside
  exact inside.accountable (expr_accountable inp)

theorem item_accountable : Accountable inp item :=
  declaration_accountable.bind fun _ => (accountable_mark _).bind fun _ =>
    (accountable_ask _).bind fun _ => accountable_pure _

theorem item?_accountable : Accountable inp item? := by
  refine (accountable_ask _).bind fun ended => ?_
  cases ended with
  | true => exact accountable_pure none
  | false => exact item_accountable.bind fun _ => accountable_pure _

theorem moduleItems_accountable : Accountable inp moduleItems :=
  item_accountable.bind fun _ => item?_accountable.loop.bind fun _ =>
    accountable_pure _

end Grammar

-- ======================================================== readings

namespace Reading

variable {α : Type} {p : Parser α} {lang : Language}
  {filename text : String} {r : Registry} {tokens : List Token}

/-- A reading that, if it fails, reports a token, with what sums up the
failures that the parser meets over the input, all of them. -/
structure ReportsFurthest {β : Type} (inp : Input) (p : Parser α)
    (r : Registry) (tokens : List Token) (reading : Reading β) : Prop where
  meets : ∃ met, Meets inp p { registry := r } met
  reports : ∀ e met, reading.report? = some e →
    Meets inp p { registry := r } met →
    (∃ t ∈ tokens, t.span = e.span) ∧ e.Sums met

/-- A text that scans reports what its parser meets. -/
theorem reportsFurthest_ofText {items : List Token} {span : Span}
    (accountable : ∀ inp, Accountable inp p)
    (scans : Lexer.tokenize lang text filename
      = .ok (items ++ [⟨.eof "", span⟩])) :
    (ofText p lang filename text r).ReportsFurthest
      (inputOf items ⟨.eof "", span⟩ lang filename text) p r
      (items ++ [⟨.eof "", span⟩]) := by
  obtain ⟨once, meets, distinct⟩ := accountable
    (inputOf items ⟨.eof "", span⟩ lang filename text) { registry := r }
  refine ⟨⟨once, meets⟩, fun e met failed meets' => ?_⟩
  rw [ofText_eq scans rfl] at failed
  have first := meets.accounts
  have accounts := meets'.accounts
  cases run : p (inputOf items ⟨.eof "", span⟩ lang filename text)
      { registry := r } with
  | ok a t | defect d t =>
      rw [run] at failed
      cases failed
  | error e' t =>
      rw [run] at failed first accounts
      cases failed
      -- how often the failures are listed makes no difference to what is
      -- kept of them, so one list tells that nothing is expected twice
      have merged := (State.covers_report first.furthest
        (first.merged e' t rfl)).2
      have covers := (State.covers_report accounts.furthest
        (accounts.merged e' t rfl)).1
      refine ⟨?_, covers, merged.nodup distinct⟩
      obtain ⟨f, member, place⟩ := covers.place
      obtain ⟨i, -, token⟩ := accounts.placed f member
      exact ⟨_, Input.tokenAt_mem rfl i, token.symm.trans place⟩

/-- Grouping clauses changes nothing in a report. -/
theorem reportsFurthest_grouped {inp : Input}
    {reading : Reading (List Decl)}
    (h : reading.ReportsFurthest inp p r tokens) :
    (reading.grouped filename).ReportsFurthest inp p r tokens where
  meets := h.meets
  reports e met failed := by
    rw [report?_grouped] at failed
    exact h.reports e met failed

end Reading

/-- The furthest failure is reported, be it of a term or of a module,
and of whatever registry it started from: at the last token at which
anything failed, alternatives that were given up included, and with all
that would have been accepted there, each thing once. -/
theorem readings_report_furthest (lang : Language)
    (filename text : String) (r : Registry) (tokens : List Token)
    (scans : Lexer.tokenize lang text filename = .ok tokens) :
    ∃ inp, Input.ofTokens? tokens ⟨filename, some text⟩ lang = some inp
      ∧ (readTerm lang filename text r).ReportsFurthest inp
        Grammar.wholeExpr r tokens
      ∧ (readModule lang filename text r).ReportsFurthest inp
        (attempt Grammar.moduleItems) r tokens := by
  obtain ⟨items, span, rfl⟩ := Lexer.tokenize_ends scans
  refine ⟨Reading.inputOf items ⟨.eof "", span⟩ lang filename text,
    Input.ofTokens?_items rfl, ?_, ?_⟩
  · exact Reading.reportsFurthest_ofText
      (fun _ => Grammar.wholeExpr_accountable) scans
  · exact Reading.reportsFurthest_grouped <| Reading.reportsFurthest_ofText
      (fun _ => Grammar.moduleItems_accountable.attempt) scans

/-- A parenthesis that is not closed. The alternative that failed last
did so at the second token; what is reported are the nine failures at
the end of the text, of which two are for want of the same thing. -/
theorem readings_report_furthest_unclosed :
    let text := "f x = (y"
    let reading := readModule .standard "m" text {}
    (∃ tokens inp, Lexer.tokenize .standard text "m" = .ok tokens
      ∧ reading.ReportsFurthest inp (attempt Grammar.moduleItems) {} tokens)
    ∧ ∃ e, reading.report? = some e
      ∧ e.span = ⟨8, 8⟩
      ∧ e.expected = ["\")\"", "\":\"", "\"\x7b\"", "\"![\"", "identifier",
        "\"(\"", "\"_\"", "\"Set\""] := by
  intro text reading
  obtain ⟨tokens, scans⟩ :
      ∃ tokens, Lexer.tokenize .standard text "m" = .ok tokens :=
    ⟨[⟨.ident "f", ⟨0, 1⟩⟩, ⟨.ident "x", ⟨2, 3⟩⟩, ⟨.operator "=", ⟨4, 5⟩⟩,
      ⟨.ofMark .lparen, ⟨6, 7⟩⟩, ⟨.ident "y", ⟨7, 8⟩⟩, ⟨.eof "", ⟨8, 8⟩⟩],
      by decide +kernel⟩
  obtain ⟨inp, -, -, reports⟩ :=
    readings_report_furthest .standard "m" text {} tokens scans
  refine ⟨⟨tokens, inp, scans, reports⟩, ?_⟩
  refine ⟨⟨.unexpected (.eof ""), ⟨8, 8⟩, _, ⟨"m", some text⟩⟩, ?_, rfl, rfl⟩
  decide +kernel

end DepLang
