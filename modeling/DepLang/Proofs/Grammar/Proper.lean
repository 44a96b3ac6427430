/-
The terms that any text can be read to, in any language and under any
registry (`Term.Proper`). They refer to names of the user's only, they
hide nothing, and whatever is applied is applied to something. That the
form of a term is read off its tokens is in the rules already
(`reads_atom_cases` and the others); here it is put together, by an
induction over nested expressions.

What is made of a proper term by binding names in front of it or by
completing its applications is proper: a binder of the machine's is
never referred to, and the holes that are supplied are named arguments.
Only an argument of a clause's left-hand side may be hidden, and only
the left-hand side itself may have no arguments (`Clause.Proper`).
-/
import DepLang.Proofs.Grammar.Enacted

namespace DepLang

open DepLang.Parser

namespace Term

-- ===================================================== proper terms

/-- No name of the machine's is referred to, nothing is hidden, and every
application has a positional argument. -/
inductive Proper : Term → Prop
  | ref {segments : List String} {σ : Option Span} :
      Proper (.ref (.user segments) σ)
  | hole {σ : Option Span} : Proper (.hole σ)
  | set {σ : Option Span} : Proper (.set σ)
  | quote {t : Term} {σ : Option Span} (inner : Proper t) :
      Proper (.quote t σ)
  | app {fn : Term} {named : List (Name × Term)} {args : List Term}
      {σ : Option Span} (some_arg : args ≠ []) (head : Proper fn)
      (values : ∀ a ∈ named, Proper a.2) (each : ∀ a ∈ args, Proper a) :
      Proper (.app fn named args σ)
  | lam {x : Name} {t b : Term} {σ : Option Span} (domain : Proper t)
      (inner : Proper b) : Proper (.lam x t b σ)
  | pi {p : Plicity} {x : Name} {t b : Term} {σ : Option Span}
      (domain : Proper t) (inner : Proper b) : Proper (.pi p x t b σ)

variable {t u : Term} {x : Name}

/-- Whether a term is proper can be told without its spans. -/
theorem Proper.of_erase (h : u.Proper) :
    ∀ {t : Term}, t.erase = u.erase → t.Proper := by
  induction h with
  | ref =>
      intro t same
      cases t <;> cases same
      exact .ref
  | hole =>
      intro t same
      cases t <;> cases same
      exact .hole
  | set =>
      intro t same
      cases t <;> cases same
      exact .set
  | quote _ inner =>
      intro t same
      cases t with
      | quote body =>
          simp only [erase, quote.injEq, and_true] at same
          exact .quote (inner same)
      | _ => cases same
  | @app fn named args _ some_arg _ _ _ head values each =>
      intro t same
      cases t with
      | app fn' named' args' =>
          simp only [erase, app.injEq, and_true] at same
          obtain ⟨same_fn, same_named, same_args⟩ := same
          rw [eraseNamed_eq_map, eraseNamed_eq_map] at same_named
          rw [eraseAll_eq_map, eraseAll_eq_map] at same_args
          refine .app ?_ (head same_fn) (fun a ha => ?_) fun a ha => ?_
          · rintro rfl
            rw [List.map_nil, eq_comm, List.map_eq_nil_iff] at same_args
            exact some_arg same_args
          · have there := List.mem_map_of_mem (f := eraseBinding) ha
            rw [same_named] at there
            obtain ⟨b, hb, same⟩ := List.mem_map.1 there
            exact values b hb (congrArg Prod.snd same).symm
          · have there := List.mem_map_of_mem (f := erase) ha
            rw [same_args] at there
            obtain ⟨b, hb, same⟩ := List.mem_map.1 there
            exact each b hb same.symm
      | _ => cases same
  | lam _ _ domain inner =>
      intro t same
      cases t with
      | lam x' t' b' =>
          simp only [erase, lam.injEq, and_true] at same
          exact .lam (domain same.2.1) (inner same.2.2)
      | _ => cases same
  | pi _ _ domain inner =>
      intro t same
      cases t with
      | pi p' x' t' b' =>
          simp only [erase, pi.injEq, and_true] at same
          exact .pi (domain same.2.2.1) (inner same.2.2.2)
      | _ => cases same

/-- What occurs in a proper term is a name of the user's. -/
theorem Proper.user_of_mem (h : t.Proper) (occurs : x ∈ t.occurrences) :
    ∃ segments, x = .user segments := by
  induction h with
  | ref => exact ⟨_, List.mem_singleton.1 occurs⟩
  | hole | set => cases occurs
  | quote _ inner => exact inner occurs
  | app _ _ _ _ head values each =>
      simp only [occurrences, List.mem_append, mem_occurrencesNamed,
        mem_occurrencesAll] at occurs
      rcases occurs with (h | ⟨a, ha, h⟩) | ⟨a, ha, h⟩
      · exact head h
      · exact values a ha h
      · exact each a ha h
  | lam _ _ domain inner | pi _ _ domain inner =>
      rw [occurrences, List.mem_append, List.mem_filter] at occurs
      exact occurs.elim domain fun h => inner h.1

/-- All parts of a proper term are proper. -/
theorem Proper.of_mem_subterms (h : t.Proper) (member : u ∈ t.subterms) :
    u.Proper := by
  induction h with
  | ref =>
      rw [List.mem_singleton.1 member]
      exact .ref
  | hole =>
      rw [List.mem_singleton.1 member]
      exact .hole
  | set =>
      rw [List.mem_singleton.1 member]
      exact .set
  | quote whole inner =>
      rcases List.mem_cons.1 member with rfl | member
      · exact .quote whole
      · exact inner member
  | app some_arg fn named args head values each =>
      rw [subterms, subtermsNamed_eq_flatMap, subtermsAll_eq_flatMap]
        at member
      rcases List.mem_cons.1 member with rfl | member
      · exact .app some_arg fn named args
      · simp only [List.mem_append, List.mem_flatMap] at member
        rcases member with (inHead | ⟨a, ha, inValue⟩) | ⟨a, ha, inArg⟩
        · exact head inHead
        · exact values a ha inValue
        · exact each a ha inArg
  | lam type body domain inner =>
      rcases List.mem_cons.1 member with rfl | member
      · exact .lam type body
      · exact (List.mem_append.1 member).elim domain inner
  | pi type body domain inner =>
      rcases List.mem_cons.1 member with rfl | member
      · exact .pi type body
      · exact (List.mem_append.1 member).elim domain inner

theorem Proper.refersToUser (h : t.Proper) : t.RefersToUser := by
  rintro u member index tag σ rfl
  cases h.of_mem_subterms member

-- ====================================================== elaboration

theorem Proper.bindImplicits (h : t.Proper) (names : List Name) :
    (t.bindImplicits names).Proper := by
  unfold Term.bindImplicits
  induction names with
  | nil => exact h
  | cons x names ih => exact .pi .hole ih

theorem Proper.generalise (h : t.Proper) (r : Registry) :
    (r.generalise t).1.Proper :=
  h.bindImplicits _

/-- Completing applications supplies holes, and holes are proper. -/
theorem Proper.values_completeFor {r : Registry}
    {given : List (Name × Term)} (h : ∀ a ∈ given, a.2.Proper) :
    ∀ a ∈ r.completeFor x given, a.2.Proper := by
  intro a ha
  rcases r.of_mem_completeFor ha with there | ⟨-, hole⟩
  · exact h a there
  · rw [hole]
    exact .hole

theorem Proper.supplyUnder (h : t.Proper) (r : Registry) :
    ∀ bound, (r.supplyUnder bound t).Proper := by
  induction h with
  | ref | hole | set =>
      intro bound
      simp only [Registry.supplyUnder]
      constructor
  | quote _ inner =>
      intro bound
      simp only [Registry.supplyUnder]
      exact .quote (inner bound)
  | @app fn named args _ some_arg same _ _ head values each =>
      intro bound
      have values : ∀ a ∈ r.supplyNamed bound named, a.2.Proper := by
        rw [r.supplyNamed_eq_map]
        intro a ha
        obtain ⟨b, hb, rfl⟩ := List.mem_map.1 ha
        exact values b hb bound
      have each : ∀ a ∈ r.supplyAll bound args, a.Proper := by
        rw [r.supplyAll_eq_map]
        intro a ha
        obtain ⟨b, hb, rfl⟩ := List.mem_map.1 ha
        exact each b hb bound
      have some_arg : r.supplyAll bound args ≠ [] := by
        rwa [r.supplyAll_eq_map, ne_eq, List.map_eq_nil_iff]
      simp only [Registry.supplyUnder]
      split
      · exact .app some_arg same (values_completeFor values) each
      · exact .app some_arg (head bound) values each
  | lam _ _ domain inner =>
      intro bound
      simp only [Registry.supplyUnder]
      exact .lam (domain bound) (inner _)
  | pi _ _ domain inner =>
      intro bound
      simp only [Registry.supplyUnder]
      exact .pi (domain bound) (inner _)

-- ============================================================ built

theorem Proper.arrows {binder : Name} {domains : List Term}
    (each : ∀ a ∈ domains, a.Proper) (last : t.Proper) :
    (Term.arrows binder domains t).Proper := by
  unfold Term.arrows
  induction domains with
  | nil => exact last
  | cons a domains ih =>
      rw [List.forall_mem_cons] at each
      exact .pi each.1 (ih each.2)

theorem Proper.applied {fn : Term} {args : List Term} (head : fn.Proper)
    (each : ∀ a ∈ args, a.Proper) : (Term.applied fn args).Proper := by
  unfold Term.applied
  split
  · exact head
  next some_arg => exact .app some_arg head (by simp) each

theorem Proper.build (op : Operator) (ht : t.Proper) (hu : u.Proper) :
    (op.build t u).Proper := by
  unfold Operator.build
  split
  · refine .app (List.cons_ne_nil _ _) .ref (by simp) ?_
    simpa using ⟨ht, hu⟩
  · exact .pi ht hu

end Term

-- =========================================================== read

namespace Grammar

open Term

variable {inp : Input} {r r' : Registry} {i j : Nat} {t : Term}

theorem NameForm.user {x : Name} (h : NameForm inp i j x) :
    ∃ segments, x = .user segments := by
  cases h with
  | word => exact ⟨_, rfl⟩
  | operator => exact ⟨_, rfl⟩

/-- A reference to a name that can be written. -/
theorem NameForm.proper {x : Name} (h : NameForm inp i j x)
    (σ : Option Span) : (Term.ref x σ).Proper := by
  obtain ⟨segments, rfl⟩ := h.user
  exact .ref

/-- Expressions that start behind a place and end no later than another
are proper. -/
def ProperInside (inp : Input) (r : Registry) (i j : Nat) : Prop :=
  ∀ i' j' t', i < i' → j' ≤ j → Reads inp r expr i' j' t' → t'.Proper

theorem ProperInside.mono {i' j' : Nat} (h : ProperInside inp r i j)
    (le : i ≤ i') (le' : j' ≤ j) : ProperInside inp r i' j' :=
  fun k l t later sooner => h k l t (by omega) (by omega)

theorem proper_of_atom (inside : ProperInside inp r i j)
    (h : Reads inp r (atom expr) i j t) : t.Proper := by
  cases reads_atom_cases h with
  | name named shape => exact (named.proper none).of_erase shape
  | hole _ _ shape =>
      have hole : (Term.hole none).Proper := .hole
      exact hole.of_erase shape
  | set _ _ shape =>
      have set : (Term.set none).Proper := .set
      exact set.of_erase shape
  | quote _ inner _ stop shape =>
      have quote : (Term.quote _ none).Proper :=
        .quote (inside _ _ _ (by omega) (by omega) inner)
      exact quote.of_erase shape
  | parens _ inner _ stop => exact inside _ _ _ (by omega) (by omega) inner

theorem proper_of_namedArgument {x : Name × Term}
    (inside : ProperInside inp r i j)
    (h : Reads inp r (namedArgument expr) i j x) : x.2.Proper := by
  cases reads_namedArgument_cases h with
  | @itself text _ _ _ _ _ shape =>
      have itself : (Term.ref (.ofText text) none).Proper := .ref
      exact itself.of_erase shape
  | value _ _ _ inner _ stop =>
      exact inside _ _ _ (by omega) (by omega) inner

/-- What is read over and over has a property if each piece has. -/
theorem forall_of_reads_many {α : Type} {p : Parser α} {R : Likeness α}
    (plain : Plain p) (alike : Alike True expr expr false true R p p)
    {P : α → Prop} {as : List α} (h : Reads inp r (many p) i j as)
    (each : ∀ k l a, i ≤ k → l ≤ j → Reads inp r p k l a → P a) :
    ∀ a ∈ as, P a := by
  replace h := readsAll_of_many plain alike h
  induction h with
  | nil => simp
  | cons first less more ih =>
      refine List.forall_mem_cons.2
        ⟨each _ _ _ (Nat.le_refl _) more.le first, ih ?_⟩
      exact fun k' l' a' from_k to_j => each k' l' a' (by omega) to_j

theorem proper_of_atoms {args : List Term}
    (inside : ProperInside inp r i j)
    (h : Reads inp r (many (atom expr)) i j args) :
    ∀ a ∈ args, a.Proper :=
  forall_of_reads_many plain_atom atom_alike h fun _ _ _ from_i to_j read =>
    proper_of_atom (inside.mono from_i to_j) read

theorem proper_of_namedArguments {named : List (Name × Term)}
    (inside : ProperInside inp r i j)
    (h : Reads inp r (many (namedArgument expr)) i j named) :
    ∀ a ∈ named, a.2.Proper :=
  forall_of_reads_many plain_namedArgument namedArgument_alike h
    fun _ _ _ from_i to_j read =>
      proper_of_namedArgument (inside.mono from_i to_j) read

/-- A function type that names its argument is proper. -/
theorem BinderForm.proper {opening closing : Mark} {text : String}
    {type body : Term} {p : Plicity} (inside : ProperInside inp r i j)
    (h : BinderForm inp r opening closing i j text type body) :
    (Term.pi p (.ofText text) type body none).Proper := by
  obtain ⟨k, domain, closes, maps, inner⟩ := h.rest
  have less := lt_of_reads_expr domain
  have less' := lt_of_reads_expr inner
  exact .pi (inside _ _ _ (by omega) (by omega) domain)
    (inside _ _ _ (by omega) (by omega) inner)

theorem proper_of_operand (inside : ProperInside inp r i j)
    (h : Reads inp r (operand expr) i j t) : t.Proper := by
  cases reads_operand_cases h with
  | atom h => exact proper_of_atom inside h
  | @app k l fn named args head names rest shape =>
      obtain ⟨a, m, as, rfl, first, more⟩ := reads_many1_cases plain_atom rest
      have := plain_atom.le head
      have := plain_namedArgument.many.le names
      have := plain_atom.le first
      have := plain_atom.many.le more
      have head := proper_of_atom (inside.mono (by omega) (by omega)) head
      have values := proper_of_namedArguments
        (inside.mono (by omega) (by omega)) names
      have first := proper_of_atom (inside.mono (by omega) (by omega)) first
      have others := proper_of_atoms (inside.mono (by omega) (by omega)) more
      have whole : (Term.app fn named (a :: as) none).Proper :=
        .app (List.cons_ne_nil _ _) head values
          (List.forall_mem_cons.2 ⟨first, others⟩)
      exact whole.of_erase shape
  | @lambda text k type body _ _ domain _ inner shape =>
      have := lt_of_reads_expr inner
      have := ((plain_announced ":").optional _).le domain
      have domain : type.Proper := by
        rcases reads_optional_cases (plain_announced ":") domain with
          given | ⟨rfl, -⟩
        · exact inside _ _ _ (by omega) (by omega)
            (reads_announced_cases given).2
        · exact .hole
      have inner := inside _ _ _ (by omega) (by omega) inner
      have whole : (Term.lam (.ofText text) type body none).Proper :=
        .lam domain inner
      exact whole.of_erase shape
  | explicit binder shape => exact (binder.proper inside).of_erase shape
  | implicit binder shape => exact (binder.proper inside).of_erase shape

-- ===================================================== expressions

/-- Whatever text an expression is read from, it is proper. -/
theorem proper_of_reads_expr (h : Reads inp r expr i j t) : t.Proper :=
  reads_operand_induction (Q := fun _ _ t => t.Proper)
    (fun _ _ _ inside operand => proper_of_operand inside operand)
    (fun _ _ _ _ _ op _ _ _ _ _ first second => first.build op second) h

/-- Every expression inside is proper, so no condition is left. -/
theorem properInside : ProperInside inp r i j :=
  fun _ _ _ _ _ => proper_of_reads_expr

end Grammar

-- ==================================================== declarations

/-- A clause of a name of the user's. Its left-hand side applies the
name, to proper arguments of which any may be hidden. -/
inductive Clause.Proper : Clause → Prop
  | intro {segments : List String} {named : List (Name × Term)}
      {args : List Term} {rhs : Term} {σ τ : Option Span}
      (values : ∀ a ∈ named, a.2.Proper)
      (each : ∀ a ∈ args, a.MayHide Term.Proper) (body : rhs.Proper) :
      Proper ⟨.user segments,
        .app (.ref (.user segments) σ) named args τ, rhs⟩

/-- A declaration with proper types or clauses. -/
inductive Decl.Proper : Decl → Prop
  | fixity {fix : Fixity} {symbols : List String} :
      Proper (.fixity fix symbols)
  | signature {x : Name} {t : Term} (type : t.Proper) :
      Proper (.signature x t)
  | data {x : Name} {t : Term} {constructors : List (Name × Term)}
      (kind : t.Proper) (each : ∀ c ∈ constructors, c.2.Proper) :
      Proper (.data ⟨x, t, constructors⟩)
  | clause {x : Name} {c : Clause} (h : c.Proper) :
      Proper (.clauses x [c])

/-- Completing keeps proper arguments, hidden or not. -/
theorem Term.MayHide.supply_proper {t : Term} (h : t.MayHide Term.Proper)
    (r : Registry) : (r.supply t).MayHide Term.Proper := by
  cases h with
  | shown h => exact .shown (h.supplyUnder r [])
  | hidden h =>
      rw [Registry.supply, Registry.supplyUnder]
      exact .hidden (h.supplyUnder r [])

theorem Clause.Proper.supply {c : Clause} (h : c.Proper) (r : Registry) :
    (c.mapTerms r.supply).Proper := by
  cases h with
  | @intro segments named args rhs σ τ values each body =>
      have given : ∀ a ∈ r.supplyNamed [] named, a.2.Proper := by
        rw [r.supplyNamed_eq_map]
        exact List.forall_mem_map.2 fun a ha =>
          (values a ha).supplyUnder r []
      have lhs : r.supply (.app (.ref (.user segments) σ) named args τ)
          = .app (.ref (.user segments) σ)
            (r.completeFor (.user segments) (r.supplyNamed [] named))
            (r.supplyAll [] args) τ := by
        simp [Registry.supply, Registry.supplyUnder,
          Registry.definitionHead?]
      rw [Clause.mapTerms, lhs]
      refine .intro (Term.Proper.values_completeFor given) ?_
        (body.supplyUnder r [])
      rw [r.supplyAll_eq_map]
      exact List.forall_mem_map.2 fun a ha => (each a ha).supply_proper r

/-- Completing keeps proper declarations. -/
theorem Decl.Proper.supply {d : Decl} (h : d.Proper) (r : Registry) :
    (d.mapTerms r.supply).Proper := by
  cases h with
  | fixity => exact .fixity
  | signature type => exact .signature (type.supplyUnder r [])
  | data kind each =>
      refine .data (kind.supplyUnder r []) ?_
      exact List.forall_mem_map.2 fun c hc => (each c hc).supplyUnder r []
  | clause h => exact .clause (h.supply r)

namespace Registry

/-- Types that are closed one after another stay proper. -/
theorem proper_declareTyped {types : List (Name × Term)}
    (each : ∀ a ∈ types, a.2.Proper) :
    ∀ r : Registry, ∀ c ∈ (r.declareTyped types).1, c.2.Proper := by
  induction types with
  | nil => exact fun _ c hc => by cases hc
  | cons a types ih =>
      obtain ⟨first, others⟩ := List.forall_mem_cons.1 each
      exact fun r => List.forall_mem_cons.2
        ⟨first.generalise r, ih others _⟩

end Registry

namespace Grammar

variable {inp : Input} {r r' : Registry} {i j : Nat}

theorem proper_of_reads_announced {op : String} {t : Term}
    (h : Reads inp r (announced op) i j t) : t.Proper :=
  proper_of_reads_expr (reads_announced_cases h).2

theorem proper_of_reads_patternAtom {t : Term}
    (h : Reads inp r (patternAtom expr) i j t) :
    t.MayHide Term.Proper := by
  cases reads_patternAtom_cases h with
  | atom h => exact .shown (proper_of_atom properInside h)
  | @hidden body _ inner shape =>
      have body := proper_of_atom properInside inner
      cases t with
      | hidden t =>
          simp only [Term.erase, Term.hidden.injEq, and_true] at shape
          exact .hidden (body.of_erase shape)
      | _ => cases shape

theorem proper_of_clauseForm {c : Clause} (h : ClauseForm inp r i j c) :
    c.Proper := by
  cases h with
  | function head names rest body =>
      obtain ⟨segments, rfl⟩ := head.user
      have each := forall_of_reads_many plain_patternAtom patternAtom_alike
        rest fun _ _ _ _ _ => proper_of_reads_patternAtom
      exact .intro (proper_of_namedArguments properInside names) each
        (proper_of_reads_announced body)
  | operator first _ _ second body =>
      refine .intro (by simp) (List.forall_mem_cons.2 ⟨?_, ?_⟩)
        (proper_of_reads_announced body)
      · exact .shown (proper_of_atom properInside first)
      · exact List.forall_mem_singleton.2
          (.shown (proper_of_atom properInside second))

theorem SignatureForm.proper {typed : Name × Term}
    (h : SignatureForm inp r i j typed r') : typed.2.Proper := by
  cases h with
  | intro _ ascribed => exact (proper_of_reads_announced ascribed).generalise r

theorem SignaturesForm.proper {typed : List (Name × Term)}
    (h : SignaturesForm inp r i j typed r') : ∀ c ∈ typed, c.2.Proper := by
  induction h with
  | nil => exact fun c hc => by cases hc
  | cons _ first _ ih => exact List.forall_mem_cons.2 ⟨first.proper, ih⟩

theorem ConstructorForm.proper {c : Name × List Term}
    (h : ConstructorForm inp r i j c) : ∀ t ∈ c.2, t.Proper := by
  cases h with
  | intro _ atoms => exact proper_of_atoms properInside atoms

theorem ConstructorsForm.proper {cs : List (Name × List Term)}
    (h : ConstructorsForm inp r i j cs) :
    ∀ c ∈ cs, ∀ t ∈ c.2, t.Proper := by
  induction h with
  | nil => exact fun c hc => by cases hc
  | cons _ first _ ih => exact List.forall_mem_cons.2 ⟨first.proper, ih⟩

/-- The type that constructors end in is proper: a data type's name,
applied to its parameters if it has some. -/
theorem proper_dataResult {x : Name} {params : List Name} {k l : Nat}
    (named : NameForm inp i k x)
    (parameters : Reads inp r (many identName) k l params) :
    (dataResult x params).Proper := by
  refine (named.proper none).applied (List.forall_mem_map.2 ?_)
  refine forall_of_reads_many plain_identName identName_alike parameters ?_
  intro _ _ y _ _ read
  obtain ⟨text, -, rfl, -⟩ := reads_identName_cases read
  exact .ref

theorem proper_dataKind (params : List Name) : (dataKind params).Proper :=
  Term.Proper.arrows (List.forall_mem_map.2 fun _ _ => .set) .set

/-- Whatever text a declaration is read from, it is proper. -/
theorem proper_of_declForm {d : Decl} (h : DeclForm inp r i j d r') :
    d.Proper := by
  cases h with
  | fixity => exact .fixity
  | signature signed => exact .signature signed.proper
  | dataBySignatures _ _ ascribed _ first more =>
      exact .data ((proper_of_reads_announced ascribed).generalise r)
        (List.forall_mem_cons.2 ⟨first.proper, more.proper⟩)
  | @dataByArguments _ _ x params _ _ _ _ named parameters _ listed
      declared =>
      obtain ⟨c, _, rest, rfl, first, more⟩ := reads_constructors_cases listed
      have types : ∀ a ∈ (c :: rest).map
          (constructorOf (dataResult x params)), a.2.Proper :=
        List.forall_mem_map.2 fun c' hc => Term.Proper.arrows
          (List.forall_mem_cons.2 ⟨first.proper, more.proper⟩ c' hc)
          (proper_dataResult named parameters)
      rw [Registry.declareAll_eq_declareTyped] at declared
      have typed := Registry.proper_declareTyped types
        (r.declare x (dataKind params))
      rw [declared] at typed
      exact .data ((proper_dataKind _).generalise r) typed
  | clause h => exact .clause (proper_of_clauseForm h)

/-- The declarations of a module are proper, whatever is supplied to
them. -/
theorem ItemsForm.proper {ds : List Decl}
    (h : ItemsForm inp r i j ds r') : ∀ d ∈ ds, d.Proper := by
  induction h with
  | nil => exact fun d hd => by cases hd
  | @cons r r' _ _ _ _ _ _ first _ _ ih =>
      exact List.forall_mem_cons.2
        ⟨(proper_of_declForm first).supply r', ih⟩

end Grammar

end DepLang
