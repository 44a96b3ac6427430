/-
What a declaration leaves in the registry is what it says. Whenever a
rule finds a declaration, the registry has grown by the fixities and the
types of just that declaration (`declaration_records`); a run of the
grammar adds nothing that its result does not show, however many
alternatives it gave up on the way.

Expressions add nothing, and neither does an alternative that failed, by
what is known of all parsers that stay inside a declaration. What is
left to see is that the registrations of a rule stand in the order of
its result. Completing a declaration changes its types only behind their
leading implicit arguments.
-/
import DepLang.Proofs.Decl.Groups
import DepLang.Proofs.Grammar.Inside
import DepLang.Proofs.Registry.Grows

namespace DepLang

namespace FixityTable

/-- The table behind a declaration. -/
def after (table : FixityTable) : Decl → FixityTable
  | .fixity fix symbols => table.add (symbols.map (⟨fix, ·⟩))
  | _ => table

theorem after_mapTerms (table : FixityTable) (f : Term → Term) (d : Decl) :
    table.after (d.mapTerms f) = table.after d := by
  cases d <;> rfl

end FixityTable

namespace Decl

/-- The entries that a declaration adds to the fixity table. -/
def entries : Decl → List FixityEntry
  | .fixity fix symbols => symbols.map (⟨fix, ·⟩)
  | _ => []

/-- The names that a declaration gives a type, in order: for a data type
its own, then those of its constructors. -/
def types : Decl → List (Name × Term)
  | .signature name type => [(name, type)]
  | .data type => (type.name, type.kind) :: type.constructors
  | _ => []

theorem entries_mapTerms (f : Term → Term) (d : Decl) :
    (d.mapTerms f).entries = d.entries := by
  cases d <;> rfl

theorem types_mapTerms (f : Term → Term) (d : Decl) :
    (d.mapTerms f).types = d.types.map fun (name, t) => (name, f t) := by
  cases d <;> rfl

theorem flatMap_entries_group (decls : List Decl) :
    (group decls).flatMap entries = decls.flatMap entries :=
  flatMap_group (g := fun _ => []) (by simp [entries]) decls

theorem flatMap_types_group (decls : List Decl) :
    (group decls).flatMap types = decls.flatMap types :=
  flatMap_group (g := fun _ => []) (by simp [types]) decls

end Decl

/-- Completing a type leaves its leading implicit arguments. -/
theorem Registry.leadingImplicits_supplyUnder (r : Registry)
    (type : Term) : ∀ bound,
      (r.supplyUnder bound type).leadingImplicits
        = type.leadingImplicits := by
  fun_induction Term.leadingImplicits type with
  | case1 x t b σ ih =>
      intro bound
      rw [supplyUnder, Term.leadingImplicits, ih]
  | case2 type other =>
      intro bound
      cases type with
      | pi p x t b σ =>
          cases p with
          | explicit => simp [supplyUnder, Term.leadingImplicits]
          | implicit => exact absurd rfl (other x t b σ)
      | app fn named args σ =>
          rw [supplyUnder]
          cases definitionHead? bound fn <;> simp [Term.leadingImplicits]
      | _ => simp [supplyUnder, Term.leadingImplicits]

namespace Parser

variable {α : Type}

/-- Whatever the parser finds, the registry has grown by what is read
off it. -/
def Records (p : Parser α) (entries : α → List FixityEntry)
    (types : α → List (Name × Term)) : Prop :=
  ∀ inp s a t, p inp s = .ok a t →
    s.registry.Grows t.registry (entries a) (types a)

variable {p : Parser α} {entries : α → List FixityEntry}
  {types : α → List (Name × Term)}

theorem Quiet.records (h : Quiet p) :
    Records p (fun _ => []) (fun _ => []) :=
  fun inp s a t run => .of_eq (h inp s a t run)

/-- What is read before a parser need not change anything. -/
theorem Records.after {β : Type} {q : Parser β} {f : β → Parser α}
    (first : Quiet q) (next : ∀ b, Records (f b) entries types) :
    Records (q >>= f) entries types := by
  intro inp s a t run
  obtain ⟨b, u, begun, ended⟩ := bind_ok run
  rw [← first inp s b u begun]
  exact next b inp u a t ended

/-- A value made of what was found, from which the same can be read
off. -/
theorem Records.then {β : Type} {g : α → β}
    {entries' : β → List FixityEntry} {types' : β → List (Name × Term)}
    (h : Records p entries types)
    (entries_eq : ∀ a, entries' (g a) = entries a)
    (types_eq : ∀ a, types' (g a) = types a) :
    Records (p >>= fun a => pure (g a)) entries' types' := by
  intro inp s b t run
  obtain ⟨a, u, begun, ended⟩ := bind_ok run
  cases ended
  rw [entries_eq, types_eq]
  exact h inp s a t begun

/-- One of several alternatives was taken, with the registry that the
choice was started with. -/
theorem records_choice {ps : List (Parser α)} (steady : ∀ p ∈ ps, Steady p)
    (each : ∀ p ∈ ps, Records p entries types) :
    Records (choice ps) entries types := by
  intro inp s a t run
  obtain ⟨p, hp, s', -, registry, found⟩ := choice_ok steady run
  rw [← registry]
  exact each p hp inp s' a t found

/-- The rounds of a loop add up. -/
theorem records_loop {p : Parser (Option α)}
    (h : Records p (·.toList.flatMap entries) (·.toList.flatMap types)) :
    Records (loop p) (·.flatMap entries) (·.flatMap types) := by
  intro inp s as t run
  replace run := rounds_of_loop run
  induction run with
  | none round => exact h inp _ _ _ round
  | last round => exact h inp _ _ _ round
  | more round _ _ ih =>
      have one := h inp _ _ _ round
      simp only [Option.toList_some, List.flatMap_singleton] at one
      exact one.trans ih

/-- What a loop found was found by a round, once the registry had grown by
what was found before. -/
theorem records_loop_around {p : Parser (Option α)}
    (h : Records p (·.toList.flatMap entries) (·.toList.flatMap types))
    {inp : Input} {s t : State} {front back : List α} {a : α}
    (run : loop p inp s = .ok (front ++ a :: back) t) :
    ∃ u v, s.registry.Grows u.registry (front.flatMap entries)
        (front.flatMap types) ∧ p inp u = .ok (some a) v := by
  generalize all : front ++ a :: back = as at run
  replace run := rounds_of_loop run
  induction run generalizing front with
  | none round => simp at all
  | @last s t b round stuck =>
      obtain ⟨rfl, rfl, rfl⟩ : front = [] ∧ a = b ∧ back = [] := by
        cases front <;> simp_all
      exact ⟨s, t, .of_eq rfl, round⟩
  | @more s u v b bs round less rest ih =>
      rcases front with _ | ⟨c, front⟩
      · cases all
        exact ⟨s, u, .of_eq rfl, round⟩
      · obtain ⟨rfl, others⟩ := List.cons.inj all
        have one := h inp s _ _ round
        simp only [Option.toList_some, List.flatMap_singleton] at one
        obtain ⟨u', v', grown, found⟩ := ih others
        exact ⟨u', v', one.trans grown, found⟩

theorem records_many (steady : Steady p) (h : Records p entries types) :
    Records (many p) (·.flatMap entries) (·.flatMap types) := by
  refine records_loop fun inp s found t run => ?_
  have some_steady : Steady (some <$> p) :=
    steady.bind fun a _ s => .refl s
  rcases optional_ok some_steady run with found | ⟨rfl, -, kept⟩
  · obtain ⟨a, u, begun, ended⟩ := bind_ok found
    cases ended
    simpa using h inp s a t begun
  · exact .of_eq kept

theorem records_sepBy1 {β : Type} {separator : Parser β} (steady : Steady p)
    (h : Records p entries types) (separates : Steady separator)
    (quiet : Quiet separator) :
    Records (sepBy1 p separator) (·.flatMap entries) (·.flatMap types) := by
  intro inp s as t run
  obtain ⟨first, u, begun, run⟩ := bind_ok run
  obtain ⟨rest, v, others, run⟩ := bind_ok run
  cases run
  have follows := records_many (separates.bind fun _ => steady)
    (.after quiet fun _ => h) inp u rest t others
  exact (h inp s first u begun).trans follows

end Parser

namespace Grammar

open DepLang.Parser

-- ==================================================== declarations

theorem declareType_records (target : Name) (type : Term) :
    Records (declareType target type) (fun _ => [])
      fun closed => [(target, closed)] := by
  intro inp s closed t run
  cases run
  exact s.registry.grows_define (s.registry.mem_generalise type)

theorem signature_records :
    Records signature (fun _ => []) fun typed => [typed] :=
  .after (quiet_of_stays name_inside) fun target =>
    .after (quiet_of_stays ascription_inside) fun type =>
      (declareType_records target type).then (fun _ => rfl) fun _ => rfl

theorem fixityDeclaration_records :
    Records fixityDeclaration Decl.entries Decl.types := by
  refine .after (quiet_of_stays associativity_inside) fun assoc =>
    .after (quiet_of_stays .natural) fun prec =>
      .after (quiet_of_stays (.sepBy1 (.bind .operator fun _ => .pure _)
        (.mark _))) fun symbols => ?_
  intro inp s d t run
  cases run
  exact s.registry.grows_addFixities _

theorem signatureDeclaration_records :
    Records signatureDeclaration Decl.entries Decl.types :=
  signature_records.then (fun _ => rfl) fun _ => rfl

theorem dataBySignatures_records :
    Records dataBySignatures Decl.entries Decl.types := by
  refine .after (quiet_of_stays (.reserved _)) fun _ =>
    .after (quiet_of_stays name_inside) fun target =>
      .after (quiet_of_stays ascription_inside) fun kind =>
        .after (quiet_of_stays (.reserved _)) fun _ => ?_
  intro inp s d t run
  obtain ⟨closed, u, declared, run⟩ := bind_ok run
  obtain ⟨constructors, v, signed, run⟩ := bind_ok run
  cases run
  have own := declareType_records target kind inp s closed u declared
  have others := records_sepBy1 (steady_of_stays signature_inside)
    signature_records (steady_of_stays (.symbol "|"))
    (quiet_of_stays (.symbol "|")) inp u constructors t signed
  have silent : constructors.flatMap (fun _ => ([] : List FixityEntry)) = [] :=
    List.flatMap_eq_nil_iff.2 fun _ _ => rfl
  simp only [silent, List.flatMap_singleton'] at others
  exact own.trans others

theorem declareConstructors_records (result : Term)
    (constructors : List (Name × List Term)) :
    Records (declareConstructors result constructors) (fun _ => []) id := by
  induction constructors with
  | nil =>
      intro inp s typed t run
      cases run
      exact .of_eq rfl
  | cons c rest ih =>
      intro inp s typed t run
      obtain ⟨closed, u, declared, run⟩ := bind_ok run
      obtain ⟨others, v, run', run⟩ := bind_ok run
      cases run
      have own := declareType_records _ _ inp s closed u declared
      exact own.trans (ih inp u others t run')

theorem dataByArguments_records :
    Records dataByArguments Decl.entries Decl.types := by
  refine .after (quiet_of_stays (.reserved _)) fun _ =>
    .after (quiet_of_stays name_inside) fun target =>
      .after (quiet_of_stays identName_inside.many) fun params =>
        .after (quiet_of_stays (.symbol _)) fun _ =>
          .after (quiet_of_stays (.sepBy1 constructorByArguments_inside
            (.symbol _))) fun constructors => ?_
  intro inp s d t run
  obtain ⟨closed, u, declared, run⟩ := bind_ok run
  obtain ⟨typed, v, signed, run⟩ := bind_ok run
  cases run
  have own := declareType_records _ _ inp s closed u declared
  exact own.trans (declareConstructors_records _ _ inp u typed t signed)

theorem dataDeclaration_records :
    Records dataDeclaration Decl.entries Decl.types := by
  refine records_choice ?_ ?_
  · simp only [dataAlternatives, List.forall_mem_cons]
    exact ⟨steady_of_stays dataBySignatures_inside,
      steady_of_stays dataByArguments_inside, by simp⟩
  · simp only [dataAlternatives, List.forall_mem_cons]
    exact ⟨dataBySignatures_records, dataByArguments_records, by simp⟩

theorem clauseDeclaration_records :
    Records clauseDeclaration Decl.entries Decl.types := by
  have quiet : Quiet clause :=
    quiet_of_stays (choice_inside functionClause_inside operatorClause_inside)
  exact quiet.records.then (fun _ => rfl) fun _ => rfl

/-- A declaration adds to the registry what it says. -/
theorem declaration_records :
    Records declaration Decl.entries Decl.types := by
  refine records_choice ?_ ?_
  · simp only [declarationAlternatives, List.forall_mem_cons]
    exact ⟨steady_of_stays fixityDeclaration_inside,
      steady_of_stays signatureDeclaration_inside,
      steady_of_stays dataDeclaration_inside,
      steady_of_stays clauseDeclaration_inside, by simp⟩
  · simp only [declarationAlternatives, List.forall_mem_cons]
    exact ⟨fixityDeclaration_records, signatureDeclaration_records,
      dataDeclaration_records, clauseDeclaration_records, by simp⟩

-- ========================================================= modules

theorem item_records : Records item Decl.entries Decl.types := by
  intro inp s completed t run
  obtain ⟨d, u, declared, run⟩ := bind_ok run
  obtain ⟨_, v, ended, run⟩ := bind_ok run
  cases run
  obtain ⟨-, rfl⟩ := mark_ok ended
  have grown := declaration_records inp s d u declared
  rw [← registry_past inp u] at grown
  rw [Decl.entries_mapTerms, Decl.types_mapTerms]
  exact grown.congr fun type =>
    (past inp u).registry.leadingImplicits_supplyUnder type []

theorem item?_records :
    Records item? (·.toList.flatMap Decl.entries)
      (·.toList.flatMap Decl.types) := by
  refine .after (quiet_of_stays (.look fun t => t.kind == .eof))
    fun ended => ?_
  intro inp s found t run
  cases ended with
  | true =>
      cases run
      exact .of_eq rfl
  | false =>
      obtain ⟨d, u, read, run⟩ := bind_ok run
      cases run
      simpa using item_records inp s d t read

/-- A module adds what its declarations add one after another. -/
theorem moduleItems_records :
    Records moduleItems (·.flatMap Decl.entries)
      (·.flatMap Decl.types) := by
  intro inp s decls t run
  obtain ⟨first, u, begun, run⟩ := bind_ok run
  obtain ⟨rest, v, others, run⟩ := bind_ok run
  cases run
  exact (item_records inp s first u begun).trans
    (records_loop item?_records inp u rest t others)

end Grammar

end DepLang
