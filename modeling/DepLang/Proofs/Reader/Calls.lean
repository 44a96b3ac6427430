/-
Calls in the clauses of a module. A clause is completed by what was
declared before it, in this module or in the registry that the module
was read under, and by nothing that the clause says itself. So a name
that its left-hand side binds counts on the right as what it was
declared to be, if it was: only a binder of the right-hand side hides a
definition (`readModule_calls`, `readModule_calls_variable`).

What was declared before a clause is told by the module that is
returned. Grouping puts a clause behind clauses of its own definition
only, and these declare nothing (`Decl.clause_of_group`).
-/
import DepLang.Proofs.Decl.Runs
import DepLang.Proofs.Implicit.Calls
import DepLang.Proofs.Reader.Reprint
import DepLang.Proofs.Reader.WellFormed

namespace DepLang

open DepLang.Grammar DepLang.Parser DepLang.Reading

-- ========================================================= modules

namespace Grammar

/-- Each declaration of a module was read as one, once the registry had
grown by the declarations before it. -/
theorem moduleItems_around {inp : Input} {s t : State}
    {front back : List Decl} {d : Decl}
    (run : moduleItems inp s = .ok (front ++ d :: back) t) :
    ∃ u v, s.registry.Grows u.registry (front.flatMap Decl.entries)
        (front.flatMap Decl.types) ∧ item inp u = .ok d v := by
  obtain ⟨first, u, begun, run⟩ := bind_ok run
  obtain ⟨rest, v, others, run⟩ := bind_ok run
  generalize all : front ++ d :: back = ds at run
  cases run
  cases front with
  | nil =>
      cases all
      exact ⟨s, u, .of_eq rfl, begun⟩
  | cons e front =>
      obtain ⟨rfl, rfl⟩ := List.cons.inj all
      obtain ⟨v, w, grown, found⟩ :=
        records_loop_around item?_records others
      have one := item_records inp s e u begun
      exact ⟨v, w, one.trans grown, (item?_ok_some found).2⟩

/-- A clause that was read as a declaration was written as one, and
completed by what was declared before it. -/
theorem clauseForm_of_item {inp : Input} {u v : State} {d : Decl}
    {c : Clause} (run : item inp u = .ok d v) (single : c ∈ d.single?) :
    ∃ j written, ClauseForm inp u.registry u.cursor j written
      ∧ (inp.tokenAt j).kind = .mark .semicolon
      ∧ c = written.mapTerms u.registry.supply := by
  obtain ⟨j, d', form, semicolon, -, rfl⟩ :=
    declForm_of_item ⟨rfl, rfl⟩ run
  generalize v.registry = r' at form single
  cases form with
  | clause h =>
      cases single
      exact ⟨j, _, h, semicolon, rfl⟩
  | _ => cases single

end Grammar

namespace Reading

/-- A clause stands in a text as it was written, up to a semicolon, and
is read under a registry. -/
def HasClause (lang : Language) (filename text : String) (r : Registry)
    (c : Clause) : Prop :=
  ∃ items span i j,
    let inp := inputOf items ⟨.eof "", span⟩ lang filename text
    Lexer.tokenize lang text filename = .ok (items ++ [⟨.eof "", span⟩])
      ∧ ClauseForm inp r i j c ∧ (inp.tokenAt j).kind = .mark .semicolon

/-- A clause of a module stands in its text, and is completed by what the
registry has grown to with the declarations before it. -/
theorem written_of_readModule {lang : Language} {filename text : String}
    {r : Registry} {decls earlier later : List Decl} {name : Name}
    {front back : List Clause} {c : Clause}
    (read : (readModule lang filename text r).outcome = .ok decls)
    (place : decls = earlier ++ .clauses name (front ++ c :: back) :: later) :
    ∃ reg written, HasClause lang filename text reg written
      ∧ c = written.mapTerms reg.supply
      ∧ r.Grows reg (earlier.flatMap Decl.entries)
        (earlier.flatMap Decl.types) := by
  obtain ⟨items, span, ds, t, scans, run, rfl, -⟩ := items_of_readModule read
  have proper := (itemsForm_of_moduleItems ⟨rfl, rfl⟩ run).1.proper
  obtain ⟨before, d, after, rfl, single, same⟩ := Decl.clause_of_group
    (fun d hd => Decl.single?_of_proper (proper d hd)) place
  obtain ⟨u, v, grown, found⟩ := moduleItems_around run
  obtain ⟨j, written, form, semicolon, completed⟩ :=
    clauseForm_of_item found single
  rw [same _ fun _ _ => rfl, same _ fun _ _ => rfl] at grown
  exact ⟨u.registry, written,
    ⟨items, span, _, j, scans, form, semicolon⟩, completed, grown⟩

end Reading

/-- A clause of a module stands in its text, and what is recorded when it
is completed are the implicit arguments of the last types declared
before it, and for all other names what was recorded at the start. Each
call on its right-hand side, also that of a name bound on its left-hand
side, stands where it was written, with the same span. If its head is
bound around it, within the right-hand side, it has the names it was
written with; if not, those recorded for the head and then what was
written besides. So it has just the names it was written with if the head
is bound around it, or has no implicit arguments, or if these are what
the written names start with, and else it has not. -/
theorem readModule_calls (lang : Language) (filename text : String)
    (r : Registry) (decls : List Decl)
    (read : (readModule lang filename text r).outcome = .ok decls)
    (earlier later : List Decl) (name : Name) (front back : List Clause)
    (c : Clause)
    (place : decls
      = earlier ++ .clauses name (front ++ c :: back) :: later) :
    ∃ reg written, HasClause lang filename text reg written
      ∧ c = written.mapTerms reg.supply
      ∧ (∀ x, match (earlier.flatMap Decl.types).reverse.lookup x with
        | none => reg.implicitsOf x = r.implicitsOf x
        | some type =>
          ∀ y, y ∈ reg.implicitsOf x ↔ y ∈ type.leadingImplicits)
      ∧ ∀ path call, c.rhs.callAt? path = some call →
        ∃ path' given,
          written.rhs.callAt? path' = some { call with names := given }
          ∧ call.names = (if call.head ∈ call.bound then given else
            reg.implicitsOf call.head
              ++ given.filter (· ∉ reg.implicitsOf call.head))
          ∧ (call.names = given ↔ call.head ∈ call.bound
            ∨ ∃ others, given = reg.implicitsOf call.head ++ others
              ∧ ∀ y ∈ others, y ∉ reg.implicitsOf call.head) := by
  obtain ⟨reg, written, has, rfl, grown⟩ := written_of_readModule read place
  refine ⟨reg, written, has, rfl, grown.implicitsOf, ?_⟩
  intro path call found
  obtain ⟨path', given, there, same⟩ := reg.call_of_supply found
  refine ⟨path', given, there, same, ?_⟩
  by_cases around : call.head ∈ call.bound
  · rw [same, if_pos around]
    exact ⟨fun _ => .inl around, fun _ => rfl⟩
  · rw [same, if_neg around, names_complete_iff]
    exact ⟨.inr, fun h => h.resolve_left around⟩

/-- A variable of the left-hand side that is called with a name of the
user's, and a definition that is called where a binder hides it. -/
theorem readModule_calls_bound :
    let f := Name.ofText "f"
    let h := Name.ofText "h"
    let a := Name.ofText "a"
    let b := Name.ofText "b"
    let text := "f : a -> a; g h y = h \x7bb = y\x7d (f y) (\\f => f y);"
    ∃ first name c reg written,
      (readModule .standard "m" text {}).outcome
          = .ok [first, .clauses name [c]]
        ∧ HasClause .standard "m" text reg written
        ∧ c = written.mapTerms reg.supply
        ∧ (reg.implicitsOf h = [] ∧ a ∈ reg.implicitsOf f)
        ∧ (∃ path, written.rhs.callAt? path
          = some ⟨[], h, [b], some ⟨20, 47⟩⟩)
        ∧ ∃ path, written.rhs.callAt? path
          = some ⟨[f], f, [], some ⟨43, 46⟩⟩ := by
  intro f h a b text
  obtain ⟨decls, read, types, whole, inside⟩ := found_of_checked
    (readModule .standard "m" text {})
    (fun decls =>
      decls.map (fun d => d.types.map fun a => (a.1, a.2.leadingImplicits))
        = [[(f, [a])], []]
      ∧ decls.map (fun d => d.single?.bind fun c => c.rhs.callAt? [])
        = [none, some ⟨[], h, [b], some ⟨20, 47⟩⟩]
      ∧ decls.map (fun d => d.single?.bind fun c =>
          c.rhs.callAt? [.arg 1, .body])
        = [none, some ⟨[f], f, [], some ⟨43, 46⟩⟩])
    (by decide +kernel)
  obtain ⟨first, _, rfl, front, rest⟩ := List.map_eq_cons_iff.1 types
  obtain ⟨second, _, rfl, -, last⟩ := List.map_eq_cons_iff.1 rest
  obtain rfl := List.map_eq_nil_iff.1 last
  obtain ⟨-, whole⟩ := List.cons.inj whole
  obtain ⟨-, inside⟩ := List.cons.inj inside
  obtain ⟨c, single, outer⟩ :=
    Option.bind_eq_some_iff.1 (List.cons.inj whole).1
  obtain ⟨name, rfl⟩ := Decl.single?_eq_some_iff.1 single
  have inner : c.rhs.callAt? [.arg 1, .body] = _ := (List.cons.inj inside).1
  obtain ⟨⟨_, type⟩, declared, same⟩ := List.map_eq_singleton_iff.1 front
  obtain ⟨rfl, leading⟩ := Prod.ext_iff.1 same
  have leading : type.leadingImplicits = [a] := leading
  obtain ⟨reg, written, has, completed, recorded, calls⟩ :=
    readModule_calls .standard "m" text {} _ read [first] [] name [] [] c rfl
  rw [List.flatMap_singleton, declared] at recorded
  have none : reg.implicitsOf h = [] := recorded h
  have some : a ∈ reg.implicitsOf f :=
    (recorded f a).2 (by rw [leading]; exact List.mem_cons_self)
  obtain ⟨path, given, there, -, just⟩ := calls _ _ outer
  obtain ⟨path', given', there', -, just'⟩ := calls _ _ inner
  have alone : [b] = given := just.2 (.inr ⟨given, by simp [none]⟩)
  have hidden : [] = given' := just'.2 (.inl List.mem_cons_self)
  subst alone hidden
  exact ⟨first, name, c, reg, written, read, has, completed,
    ⟨none, some⟩, ⟨path, there⟩, path', there'⟩

/-- The call of a variable that the left-hand side binds, under the name
of a definition with an implicit argument: the argument is supplied, and
none was written. -/
theorem readModule_calls_variable :
    let f := Name.ofText "f"
    let g := Name.ofText "g"
    let a := Name.ofText "a"
    let y := Name.ofText "y"
    ∃ first name c written,
      (readModule .standard "m" "f : a -> a; g f y = f y;" {}).outcome
          = .ok [first, .clauses name [c]]
        ∧ first.types.map (fun type => (type.1, type.2.leadingImplicits))
          = [(f, [a])]
        ∧ c.lhs.erase = .app (.ref g none) [] [.ref f none, .ref y none] none
        ∧ c.rhs.callAt? [] = some ⟨[], f, [a], some ⟨20, 23⟩⟩
        ∧ (ofText clause .standard "m" "g f y = f y" {}).outcome = .ok written
        ∧ written.rhs.callAt? [] = some ⟨[], f, [], some ⟨8, 11⟩⟩ := by
  intro f g a y
  let lhs : Term := .app (.ref g none) [] [.ref f none, .ref y none] none
  obtain ⟨decls, read, types, checked⟩ := found_of_checked
    (readModule .standard "m" "f : a -> a; g f y = f y;" {})
    (fun decls =>
      decls.map (fun d => d.types.map fun type =>
        (type.1, type.2.leadingImplicits)) = [[(f, [a])], []]
      ∧ decls.map (fun d => d.single?.bind fun c =>
          if c.lhs.sameShape lhs then c.rhs.callAt? [] else none)
        = [none, some ⟨[], f, [a], some ⟨20, 23⟩⟩])
    (by decide +kernel)
  obtain ⟨written, spelled, given⟩ := found_of_checked
    (ofText clause .standard "m" "g f y = f y" {})
    (fun written => written.rhs.callAt? []
      = some ⟨[], f, [], some ⟨8, 11⟩⟩) (by decide +kernel)
  obtain ⟨first, _, rfl, front, rest⟩ := List.map_eq_cons_iff.1 types
  obtain ⟨second, _, rfl, -, last⟩ := List.map_eq_cons_iff.1 rest
  obtain rfl := List.map_eq_nil_iff.1 last
  obtain ⟨-, back⟩ := List.cons.inj checked
  obtain ⟨c, single, call⟩ :=
    Option.bind_eq_some_iff.1 (List.cons.inj back).1
  obtain ⟨name, rfl⟩ := Decl.single?_eq_some_iff.1 single
  obtain ⟨left, call⟩ := Option.ite_none_right_eq_some.1 call
  exact ⟨first, name, c, written, read, front,
    (Term.sameShape_iff _ _).1 left, call, spelled, given⟩

end DepLang
