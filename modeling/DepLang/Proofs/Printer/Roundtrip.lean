/-
Printed terms read back. Every form of canonical term is read where its
lexemes stand, by the rule of its precedence, once its parts are: the
parts stand in places of their own, each followed by a lexeme that stops
it there. By induction every canonical term is read so, and as its text
lexes to its lexemes, its text reads back to it, up to spans.
-/
import DepLang.Proofs.Lexer.Joined
import DepLang.Proofs.Printer.Places

namespace DepLang

open DepLang.Grammar DepLang.Lexer DepLang.Parser

namespace Term

variable {inp : Input} {r : Registry} {i j k : Nat} {t : Term}

-- ============================================================ atoms

theorem rereads_word {text : String} {span : Option Span}
    (name : IsIdentifier text) :
    Rereads inp r (.ref (.ofText text) span) := by
  intro i j stands _
  rw [lexemes, nameLexemes, name.isOperator, Name.toString_ofText] at stands
  obtain ⟨token, rfl⟩ := stands
  have reads := reads_atom_ident (r := r) (e := expr) token
  exact ⟨.ref (.ofText text) (some _), rfl, Nat.lt_succ_self i, reads⟩

theorem rereads_operator (ordinary : Ordinary inp r) {text : String}
    {span : Option Span} (name : IsFreeOperator text) :
    Rereads inp r (.ref (.ofText text) span) := by
  intro i j stands _
  rw [lexemes, nameLexemes, isOperator_of_lone name.1,
    Name.toString_ofText] at stands
  obtain ⟨opening, token, closing, rfl⟩ := stands
  have free := name.2
  rw [← ordinary.language] at free
  have reads := reads_atom_operator (r := r) (e := expr)
    (kind_of_mark opening) token free (kind_of_mark closing)
  exact ⟨.ref (.ofText text) (some _), rfl, by omega, reads⟩

theorem rereads_hole {span : Option Span} :
    Rereads inp r (.hole span) := by
  intro i j stands _
  obtain ⟨token, rfl⟩ := stands
  have reads := reads_atom_hole (r := r) (e := expr) (kind_of_mark token)
  exact ⟨.hole (some _), rfl, Nat.lt_succ_self i, reads⟩

theorem rereads_set {span : Option Span} : Rereads inp r (.set span) := by
  intro i j stands _
  obtain ⟨token, rfl⟩ := stands
  have reads := reads_atom_set (r := r) (e := expr) token
  exact ⟨.set (some _), rfl, Nat.lt_succ_self i, reads⟩

theorem rereads_quote (ordinary : Ordinary inp r) {body : Term}
    {span : Option Span} (inner : Rereads inp r body) :
    Rereads inp r (.quote body span) := by
  intro i j stands _
  rw [lexemes] at stands
  obtain ⟨k, ⟨opening, between⟩, closing, rfl⟩ := stands_append.1 stands
  obtain ⟨u, same, less, reads⟩ :=
    inner.expr between (ordinary.stops_at closing rfl)
  have quote := reads_atom_quote (kind_of_mark opening) reads
    (kind_of_mark closing)
  exact ⟨.quote u (some _), by rw [erase, erase, same], by omega, quote⟩

-- ========================================================== binders

/-- An operand that ends the expression it stands in is the expression,
whatever it binds. -/
theorem takes_binder {u : Term} (less : i < j)
    (h : Reads inp r (operand expr) i j u)
    (stops : Stops r.fixities .binder (inp.tokenAt j).lexeme) :
    Takes inp r .binder i j u := by
  have operand : Takes inp r .application i j u := ⟨less, h⟩
  exact operand.loosen (by decide) stops

theorem rereads_lam (ordinary : Ordinary inp r) {text : String}
    {type body : Term} {span : Option Span}
    (domain : Rereads inp r type) (inner : Rereads inp r body) :
    Rereads inp r (.lam (.ofText text) type body span) := by
  intro i j stands stops
  rw [lexemes, Name.toString_ofText] at stands
  obtain ⟨k, ⟨opening, target, ascribed⟩, maps, after⟩ :=
    stands_append.1 stands
  have mapped := ordinary.stops_at maps rfl
  obtain ⟨v, sameType, le, reads⟩ : ∃ v : Term, v.erase = type.erase
      ∧ i + 1 + 1 ≤ k ∧ Reads inp r
        ((ascription expr).optional (.hole none)) (i + 1 + 1) k v := by
    unfold ascriptionLexemes at ascribed
    split at ascribed
    · cases ascribed
      refine ⟨.hole none, rfl, Nat.le_refl _, reads_no_ascription ?_⟩
      rw [maps]
      decide
    · obtain ⟨colon, typed⟩ := ascribed
      obtain ⟨v, same, less, reads⟩ := domain.expr typed mapped
      exact ⟨v, same, by omega, reads_ascription colon reads⟩
  obtain ⟨u, same, less, body⟩ := inner.expr after stops
  have lambda := reads_lambda opening target reads maps body
  exact ⟨.lam (.ofText text) v u (some _),
    by rw [erase, erase, same, sameType],
    takes_binder (by omega) lambda stops⟩

theorem rereads_pi (ordinary : Ordinary inp r) (plicity : Plicity)
    {text : String} {type body : Term} {span : Option Span}
    (name : IsIdentifier text) (domain : Rereads inp r type)
    (inner : Rereads inp r body) :
    Rereads inp r (.pi plicity (.ofText text) type body span) := by
  intro i j stands stops
  rw [lexemes] at stands
  obtain ⟨k, bound, maps, after⟩ := stands_append.1 stands
  obtain ⟨u, same, less, body⟩ := inner.expr after stops
  -- the two kinds of brackets differ in how they are told from others
  cases plicity with
  | explicit =>
      rw [domainLexemes, Name.toString_ofText] at bound
      · obtain ⟨l, v, rfl, less', sameType, opening, target, colon, reads,
          closing⟩ := domain.bracketed ordinary rfl bound
        have named : Stands inp (i + 1)
            (Term.ref (.ofText text) none).lexemes (i + 1 + 1) := by
          rw [lexemes, nameLexemes, name.isOperator, Name.toString_ofText]
          exact ⟨target, rfl⟩
        obtain ⟨x, -, -, alone⟩ := Rereads.expr
          (rereads_word name) named (ordinary.stops_at colon rfl)
        have pi := reads_pi_explicit (kind_of_mark opening) target colon
          alone reads (kind_of_mark closing) maps body
        exact ⟨.pi .explicit (.ofText text) v u (some _),
          by rw [erase, erase, same, sameType],
          takes_binder (by omega) pi stops⟩
      · exact fun _ _ machine => by cases machine
  | implicit =>
      rw [domainLexemes, Name.toString_ofText] at bound
      obtain ⟨l, v, rfl, less', sameType, opening, target, colon, reads,
        closing⟩ := domain.bracketed ordinary rfl bound
      have pi := reads_pi_implicit (kind_of_mark opening) target colon
        reads (kind_of_mark closing) maps body
      exact ⟨.pi .implicit (.ofText text) v u (some _),
        by rw [erase, erase, same, sameType],
        takes_binder (by omega) pi stops⟩

/-- A function type that names no argument goes on the chain of arrows
of its result. -/
theorem rereads_arrow (ordinary : Ordinary inp r) {type body : Term}
    {span : Option Span} (domain : Rereads inp r type)
    (inner : Rereads inp r body) :
    Rereads inp r (.pi .explicit arrowBinder type body span) := by
  intro i j stands stops
  rw [lexemes] at stands
  obtain ⟨k, bound, maps, after⟩ := stands_append.1 stands
  have before : Stops r.fixities .operator (inp.tokenAt k).lexeme := by
    rw [maps]
    refine ⟨rfl, ordinary.operator?_none fun op same => ?_⟩
    cases same
    decide
  obtain ⟨v, sameType, takes⟩ :=
    domain.enclosed ordinary .operator bound before
  obtain ⟨u, same, more⟩ := inner.binder after stops
  refine ⟨Row.combine "->" v u, ?_, .cons takes maps more⟩
  rw [Row.combine, if_pos rfl, erase, erase, same, sameType]
  rfl

-- ==================================================== applications

/-- Two operands with an operator between them. -/
theorem rereads_joined (ordinary : Ordinary inp r) {symbol : String}
    {x y : Term} {head span : Option Span}
    (known : symbol = "=" ∨ ∃ e ∈ r.fixities, e.symbol = symbol)
    (op : Lone symbol (.operator symbol)) (left : Rereads inp r x)
    (right : Rereads inp r y) :
    Rereads inp r (.app (.ref (.ofText symbol) head) [] [x, y] span) := by
  intro i j stands stops
  have infixed : infixOperator? (.ref (.ofText symbol) head) [] [x, y]
      = some (.ofText symbol) := by
    rw [infixOperator?, isOperator_of_lone op, if_pos rfl]
  have place : (Term.app (.ref (.ofText symbol) head) [] [x, y]
      span).precedence = .operator := by
    rw [precedence, infixed]
    rfl
  have other : symbol ≠ "->" := by
    obtain rfl | ⟨e, he, rfl⟩ := known
    · decide
    · exact ordinary.noArrow e he
  rw [lexemes, infixed] at stands
  simp only [Name.toString_ofText, lexemesAll, List.intercalate_cons_cons,
    List.intercalate_singleton] at stands
  obtain ⟨l, before, after⟩ := stands_append.1 stands
  obtain ⟨k, first, token, rfl⟩ := stands_append.1 before
  rw [place] at stops ⊢
  obtain ⟨u, same, takes⟩ := left.enclosed ordinary
    .application first (by rw [token]; rfl)
  obtain ⟨v, same', takes'⟩ := right.enclosed ordinary
    .application after stops.1
  refine ⟨Row.combine symbol u v, ?_, ?_⟩
  · rw [Row.combine, if_neg other]
    simp only [erase, eraseAll, eraseNamed, same, same']
  · exact advances_pair (FixityTable.faithful_tighter ordinary.noArrow)
      (FixityTable.any_has_tighter known) takes token takes' stops.2

/-- Terms one after another, each read where it stands, up to where no
other follows. -/
theorem reads_each {ι : Type} {p : Parser Term} {xs : List ι}
    {text : ι → List Lexeme} {term : ι → Term}
    (each : ∀ x ∈ xs, ∀ i j, Stands inp i (text x) j →
      ∃ u : Term, u.erase = (term x).erase ∧ i < j
        ∧ (inp.tokenAt i).kind ≠ .eof ∧ Reads inp r p i j u)
    (stands : Stands inp i (xs.flatMap text) j)
    (ends : Refuses inp r p j) :
    ∃ us, eraseAll us = eraseAll (xs.map term)
      ∧ Reads inp r (many p) i j us := by
  induction xs generalizing i with
  | nil =>
      obtain rfl : i = j := stands
      exact ⟨[], rfl, reads_many_nil ends⟩
  | cons x xs ih =>
      rw [List.flatMap_cons] at stands
      obtain ⟨k, first, rest⟩ := stands_append.1 stands
      obtain ⟨u, same, less, inside, reads⟩ :=
        each x List.mem_cons_self _ _ first
      obtain ⟨us, sames, more⟩ :=
        ih (fun y hy => each y (List.mem_cons_of_mem _ hy)) rest
      refine ⟨u :: us, ?_, reads_many_cons inside less reads more⟩
      rw [List.map_cons, eraseAll, eraseAll, same, sames]

theorem flatten_lexemesAll (place : Precedence) (ts : List Term) :
    (lexemesAll place ts).flatten
      = ts.flatMap fun t => enclosed place t t.lexemes := by
  induction ts with
  | nil => rfl
  | cons t ts ih =>
      rw [lexemesAll, List.flatten_cons, List.flatMap_cons, ih]

/-- Arguments, each read where it stands in the place of an atom, up to
where no other follows. -/
theorem reads_arguments {p : Parser Term} {ts : List Term}
    (each : ∀ t ∈ ts, ∀ i j, Stands inp i (enclosed .atom t t.lexemes) j →
      ∃ u : Term, u.erase = t.erase ∧ i < j
        ∧ (inp.tokenAt i).kind ≠ .eof ∧ Reads inp r p i j u)
    (stands : Stands inp i (lexemesAll .atom ts).flatten j)
    (ends : Refuses inp r p j) :
    ∃ us, eraseAll us = eraseAll ts ∧ Reads inp r (many p) i j us := by
  rw [flatten_lexemesAll] at stands
  obtain ⟨us, same, reads⟩ := reads_each each stands ends
  rw [List.map_id'] at same
  exact ⟨us, same, reads⟩

/-- Where it stands in the place of an atom, a term is read as one. -/
theorem reads_atom_of_rereads (ordinary : Ordinary inp r) (h : Rereads inp r t)
    (stands : Stands inp i (enclosed .atom t t.lexemes) j) :
    ∃ u : Term, u.erase = t.erase ∧ i < j ∧ (inp.tokenAt i).kind ≠ .eof
      ∧ Reads inp r (atom expr) i j u := by
  obtain ⟨u, same, takes⟩ := h.enclosed ordinary .atom stands trivial
  exact ⟨u, same, takes.1,
    (kind_of_startsAtom (startsAtom_of_reads takes.2)).1, takes.2⟩

/-- Arguments in places for atoms, up to where no other follows. -/
theorem reads_args (ordinary : Ordinary inp r) {ts : List Term}
    (each : ∀ t ∈ ts, Rereads inp r t)
    (stands : Stands inp i (lexemesAll .atom ts).flatten j)
    (ends : endsAtom (inp.tokenAt j).lexeme = true) :
    ∃ us, eraseAll us = eraseAll ts
      ∧ Reads inp r (many (atom expr)) i j us := by
  exact reads_arguments (fun t ht _ _ =>
    reads_atom_of_rereads ordinary (each t ht)) stands
    (refuses_atom (endsAtom_iff.1 ends).1)

/-- Arguments given by name, up to where none follows. -/
theorem reads_named (ordinary : Ordinary inp r)
    {implicits : List (Name × Term)}
    (names : ∀ a ∈ implicits, ∃ text, a.1 = .ofText text
      ∧ IsIdentifier text)
    (each : ∀ a ∈ implicits, Rereads inp r a.2)
    (stands : Stands inp i (lexemesNamed implicits).flatten j)
    (ends : (inp.tokenAt j).kind ≠ .mark .lbrace) :
    ∃ xs, eraseNamed xs = eraseNamed implicits
      ∧ Reads inp r (many (namedArgument expr)) i j xs := by
  induction implicits generalizing i with
  | nil =>
      obtain rfl : i = j := stands
      exact ⟨[], rfl, reads_many_nil (refuses_namedArgument ends)⟩
  | cons a implicits ih =>
      obtain ⟨name, t⟩ := a
      obtain ⟨text, rfl, -⟩ := names _ List.mem_cons_self
      rw [lexemesNamed, List.flatten_cons, Name.toString_ofText] at stands
      obtain ⟨k, first, rest⟩ := stands_append.1 stands
      obtain ⟨l, u, rfl, less, same, opening, target, equals, reads,
        closing⟩ := (each _ List.mem_cons_self).bracketed ordinary rfl first
      obtain ⟨xs, sames, more⟩ := ih
        (fun a ha => names a (List.mem_cons_of_mem _ ha))
        (fun a ha => each a (List.mem_cons_of_mem _ ha)) rest
      have inside : (inp.tokenAt i).kind ≠ .eof := by
        rw [kind_of_mark opening]
        simp
      refine ⟨(.ofText text, u) :: xs,
        by rw [eraseNamed, eraseNamed, same, sames], ?_⟩
      exact reads_many_cons inside (by omega)
        (reads_namedArgument (kind_of_mark opening) target equals reads
          (kind_of_mark closing)) more

/-- In front of an application's arguments, only an application stands
otherwise than among them. -/
theorem enclosed_of_apart {fn : Term} (apart : fn.precedence ≠ .application)
    (ls : List Lexeme) :
    enclosed .application fn ls = enclosed .atom fn ls := by
  unfold enclosed
  cases level : fn.precedence <;> first | rfl | exact absurd level apart

/-- A head with arguments; the head is no application printed without
parentheses, so it is read as an atom. -/
theorem rereads_app (ordinary : Ordinary inp r) {fn : Term}
    {implicits : List (Name × Term)} {args : List Term}
    {span : Option Span} (shown : infixOperator? fn implicits args = none)
    (apart : fn.precedence ≠ .application) (some_arg : args ≠ [])
    (names : ∀ a ∈ implicits, ∃ text, a.1 = .ofText text
      ∧ IsIdentifier text)
    (head : Rereads inp r fn)
    (values : ∀ a ∈ implicits, Rereads inp r a.2)
    (each : ∀ a ∈ args, Rereads inp r a) :
    Rereads inp r (.app fn implicits args span) := by
  intro i j stands stops
  have place : (Term.app fn implicits args span).precedence
      = .application := by
    rw [precedence, shown]
    rfl
  obtain ⟨first, args, rfl⟩ := List.exists_cons_of_ne_nil some_arg
  rw [place] at stops ⊢
  rw [lexemes, shown] at stands
  simp only [enclosed_of_apart apart, List.flatten_cons,
    List.flatten_append, lexemesAll] at stands
  obtain ⟨k, fnStands, stands⟩ := stands_append.1 stands
  obtain ⟨l, namedStands, stands⟩ := stands_append.1 stands
  obtain ⟨m, firstStands, restStands⟩ := stands_append.1 stands
  obtain ⟨f, sameHead, takesHead⟩ :=
    head.enclosed ordinary .atom fnStands trivial
  obtain ⟨u, same, takes⟩ := (each first List.mem_cons_self).enclosed
    ordinary .atom firstStands trivial
  obtain ⟨us, sames, rest⟩ := reads_args ordinary
    (fun a ha => each a (List.mem_cons_of_mem _ ha)) restStands stops
  obtain ⟨xs, sameNamed, named⟩ := reads_named ordinary names values
    namedStands (kind_of_startsAtom (startsAtom_of_reads takes.2)).2
  have reads := reads_application takesHead.2 named
    (Reads.many1 takes.2 rest)
  refine ⟨.app f xs (u :: us) (some _), ?_, ?_, reads⟩
  · simp only [erase, eraseAll, sameHead, sameNamed, same, sames]
  · have := takesHead.1
    have := takes.1
    have := namedStands.le
    have := restStands.le
    omega

-- ======================================================= all forms

/-- Every canonical term is read where its lexemes stand. -/
theorem Canonical.rereads (ordinary : Ordinary inp r)
    (h : t.Canonical r.fixities) : Rereads inp r t := by
  induction h with
  | word name => exact rereads_word name
  | operator name => exact rereads_operator ordinary name
  | hole => exact rereads_hole
  | set => exact rereads_set
  | quote _ inner => exact rereads_quote ordinary inner
  | lam _ _ _ domain inner => exact rereads_lam ordinary domain inner
  | pi name _ _ domain inner =>
      exact rereads_pi ordinary _ name domain inner
  | arrow _ _ domain inner => exact rereads_arrow ordinary domain inner
  | joined known _ _ left right =>
      refine rereads_joined ordinary known ?_ left right
      obtain rfl | ⟨e, he, rfl⟩ := known
      · exact lone_of_reserved (by decide)
      · exact (ordinary.free e he).1
  | app shown apart some_arg names _ _ _ head values each =>
      exact rereads_app ordinary shown apart some_arg names head values
        each

end Term

/-- The lexemes that a text is scanned to stand in its input, from the
first to the last, and then it ends. -/
theorem Reading.stands_inputOf (items : List Token) (span : Span)
    (filename text : String) :
    let inp := inputOf items ⟨.eof "", span⟩ .standard filename text
    Stands inp 0 (items.map (·.lexeme)) items.length
      ∧ (inp.tokenAt items.length).lexeme = .eof "" := by
  intro inp
  have holds : inp.Holds items := rfl
  exact ⟨Stands.of_holds holds (List.nil_append items).symm,
    holds.tokenAt_length⟩

/-- A text that is written with the lexemes has them in its input. -/
theorem Reading.stands_of_lexes {text : String} {ls : List Lexeme}
    (lexes : Lexes text.toList ls) (filename : String) :
    ∃ items span,
      tokenize .standard text filename = .ok (items ++ [⟨.eof "", span⟩])
      ∧ Stands (inputOf items ⟨.eof "", span⟩ .standard filename text) 0 ls
        items.length
      ∧ ((inputOf items ⟨.eof "", span⟩ .standard filename text).tokenAt
        items.length).lexeme = .eof "" := by
  obtain ⟨items, span, scans, same⟩ := tokenize_of_lexes lexes filename
  exact ⟨items, span, scans,
    same ▸ stands_inputOf items span filename text⟩

/-- What is printed of a canonical term is read again, to the same up to
spans. -/
theorem Term.Canonical.reread (filename : String) {r : Registry}
    (free : ∀ e ∈ r.fixities, IsFreeOperator e.symbol) {t : Term}
    (canonical : t.Canonical r.fixities) :
    ∃ u, (readTerm .standard filename t.print r).outcome = .ok u
      ∧ u.erase = t.erase := by
  have lexes : Lexes t.print.toList t.lexemes := by
    simpa using canonical.prints free [] [] ends_nil .nil
  obtain ⟨items, span, scans, stands, last⟩ :=
    Reading.stands_of_lexes lexes filename
  have ordinary : Ordinary (Reading.inputOf items ⟨.eof "", span⟩ .standard
      filename t.print) r := ⟨rfl, free⟩
  obtain ⟨u, shape, -, reads⟩ := (canonical.rereads ordinary).expr
    stands (ordinary.stops_at last rfl)
  refine ⟨u, ?_, shape⟩
  refine Reading.outcome_of_reads scans rfl (reads_wholeExpr reads ?_)
  rw [Token.kind, last]
  rfl

/-- The text of a canonical term reads back to the term, up to spans, if
all operators declared are free ones of the standard language. -/
theorem readTerm_print (filename : String) (r : Registry)
    (free : ∀ e ∈ r.fixities, IsFreeOperator e.symbol) (t : Term)
    (canonical : t.Canonical r.fixities) :
    ∃ u, (readTerm .standard filename t.print r).outcome = .ok u
      ∧ u.sameShape t = true := by
  obtain ⟨u, read, shape⟩ := canonical.reread filename free
  exact ⟨u, read, (Term.sameShape_iff u t).2 shape⟩

/-- A term of many forms, under an operator of the user's. -/
theorem readTerm_print_mixed :
    let r : Registry := { fixities := [⟨⟨.left, 6⟩, "+"⟩] }
    let a : Term := .ref (.ofText "a") none
    let plus : Term := .ref (.ofText "+") none
    let sum : Term := .app plus []
      [.app plus [] [a, a] none, .app a [(.ofText "x", a)] [plus] none] none
    let t : Term := .pi .implicit (.ofText "a") (.set none)
      (.pi .explicit arrowBinder sum
        (.lam (.ofText "b") (.hole none) (.quote a none) none) none) none
    t.print = "\x7ba : Set\x7d -> (a + a) + a \x7bx = a\x7d (+) -> \\b => ![a]"
      ∧ ∃ u, (readTerm .standard "m" t.print r).outcome = .ok u
        ∧ u.sameShape t = true := by
  intro r a plus sum t
  have free : ∀ e ∈ r.fixities, IsFreeOperator e.symbol := by
    decide +kernel
  have declared : "+" = "=" ∨ ∃ e ∈ r.fixities, e.symbol = "+" :=
    .inr ⟨_, List.mem_cons_self, rfl⟩
  have word : ∀ text ∈ ["a", "b", "x"], IsIdentifier text := by
    decide +kernel
  have aCanonical : a.Canonical r.fixities := .word (word "a" (by simp))
  have plusCanonical : plus.Canonical r.fixities :=
    .operator (free _ List.mem_cons_self)
  have applied : (Term.app a [(.ofText "x", a)] [plus] none).Canonical
      r.fixities := by
    refine .app rfl (by decide) (by simp) ?_ aCanonical ?_ ?_
    · exact List.forall_mem_singleton.2 ⟨_, rfl, word "x" (by simp)⟩
    · exact List.forall_mem_singleton.2 aCanonical
    · exact List.forall_mem_singleton.2 plusCanonical
  have canonical : t.Canonical r.fixities := by
    refine .pi (word "a" (by simp)) .set (.arrow ?_ ?_)
    · exact .joined declared (.joined declared aCanonical aCanonical) applied
    · exact .lam (word "b" (by simp)) .hole (.quote aCanonical)
  exact ⟨by decide, readTerm_print "m" r free t canonical⟩

end DepLang
