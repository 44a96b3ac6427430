/-
The parameters of a data type. A data type that is given by its
constructors' arguments does not bind its parameters: they are left free
in every constructor's type, for that type ends in the data type applied
to all of them, and closing the type is what binds them. So a parameter
is bound there unless it was defined when the type was closed, by an
older declaration, as the name of the data type itself or of a
constructor before (`mem_constructor_iff`). One that was defined stays a
reference to its definition.

Completion comes later, with more definitions than closing had. It adds
no free name, and it takes none away from a term as it is without its
named arguments; the parameters stand in such a place.
-/
import DepLang.Proofs.Grammar.DataForms
import DepLang.Proofs.Implicit.Supply

namespace DepLang

open DepLang.Grammar DepLang.Parser DepLang.Term

-- ====================================================== free names

namespace Term

mutual

/-- What is free in a term without its named arguments is free in the
term. -/
theorem mem_of_mem_withoutNamed {x : Name} (t : Term)
    (h : x ∈ t.withoutNamed.occurrences) : x ∈ t.occurrences := by
  cases t with
  | ref | hole | set => exact h
  | quote t | hidden t => exact mem_of_mem_withoutNamed t h
  | app fn xs ts =>
      simp only [withoutNamed, occurrences, occurrencesNamed,
        List.append_nil, List.mem_append] at h ⊢
      rcases h with inHead | inArgs
      · exact .inl (.inl (mem_of_mem_withoutNamed fn inHead))
      · exact .inr (mem_of_mem_withoutNamedAll ts inArgs)
  | lam y t b | pi p y t b =>
      simp only [withoutNamed, occurrences, List.mem_append,
        List.mem_filter] at h ⊢
      exact h.imp (mem_of_mem_withoutNamed t)
        (And.imp_left (mem_of_mem_withoutNamed b))

/-- The same of positional arguments. -/
theorem mem_of_mem_withoutNamedAll {x : Name} (ts : List Term)
    (h : x ∈ occurrencesAll (withoutNamedAll ts)) :
    x ∈ occurrencesAll ts := by
  cases ts with
  | nil => exact h
  | cons t ts =>
      simp only [withoutNamedAll, occurrencesAll, List.mem_append] at h ⊢
      exact h.imp (mem_of_mem_withoutNamed t)
        (mem_of_mem_withoutNamedAll ts)

end

section
variable {x binder : Name} {names params : List Name} {t : Term}

/-- Names bound in front of a type hide no other name. -/
theorem mem_withoutNamed_bindImplicits (h : x ∈ t.withoutNamed.occurrences)
    (other : x ∉ names) :
    x ∈ (t.bindImplicits names).withoutNamed.occurrences := by
  unfold bindImplicits
  induction names with
  | nil => exact h
  | cons y names ih =>
      rw [List.mem_cons, not_or] at other
      rw [List.foldr_cons, withoutNamed, occurrences]
      apply List.mem_append_right
      exact List.mem_filter.2
        ⟨ih other.2, decide_eq_true other.1⟩

/-- The binder of a constructor's arguments hides no other name. -/
theorem mem_withoutNamed_arrows (h : x ∈ t.withoutNamed.occurrences)
    (other : x ≠ binder) (domains : List Term) :
    x ∈ (arrows binder domains t).withoutNamed.occurrences := by
  unfold arrows
  induction domains with
  | nil => exact h
  | cons u domains ih =>
      rw [List.foldr_cons, withoutNamed, occurrences]
      apply List.mem_append_right
      exact List.mem_filter.2 ⟨ih, decide_eq_true other⟩

/-- A parameter is an argument of the type of the results, by its
place. -/
theorem mem_withoutNamed_dataResult (target : Name) (h : x ∈ params) :
    x ∈ (dataResult target params).withoutNamed.occurrences := by
  have inArgs : x ∈ occurrencesAll
      (withoutNamedAll (params.map (Term.ref · none))) := by
    induction params with
    | nil => cases h
    | cons y params ih =>
        simp only [List.map_cons, withoutNamedAll, withoutNamed,
          occurrencesAll, occurrences, List.singleton_append,
          List.mem_cons] at h ⊢
        exact h.imp_right ih
  obtain ⟨y, others, rfl⟩ :=
    List.exists_cons_of_ne_nil (List.ne_nil_of_mem h)
  exact List.mem_append_right _ inArgs

end

end Term

-- ========================================================= closing

namespace Registry

variable {r : Registry}

/-- What is defined once a name is declared. -/
theorem defines_declare (target x : Name) (type : Term) :
    (r.declare target type).defines x = true
      ↔ r.defines x = true ∨ x = target := by
  unfold declare defines
  rw [implicitsOf?_define]
  by_cases same : x = target <;> simp [same]

/-- The type of a constructor was closed under what had been defined by
then: all there was before, and the constructors before it. -/
theorem closed_of_declareTyped {types : List (Name × Term)}
    {c : Name × Term} {front back : List (Name × Term)}
    (h : (r.declareTyped types).1 = front ++ c :: back) :
    ∃ (q : Registry) (type : Term), (c.1, type) ∈ types
      ∧ c.2 = (q.generalise type).1
      ∧ ∀ x, q.defines x = true
        ↔ r.defines x = true ∨ x ∈ front.map Prod.fst := by
  induction types generalizing r front with
  | nil => simp [declareTyped] at h
  | cons a types ih =>
      obtain ⟨y, type⟩ := a
      cases front with
      | nil =>
          obtain ⟨rfl, -⟩ := List.cons.inj h
          exact ⟨r, type, List.mem_cons_self, rfl, by simp⟩
      | cons b front =>
          obtain ⟨rfl, rest⟩ := List.cons.inj h
          obtain ⟨q, type', member, closed, known⟩ := ih rest
          refine ⟨q, type', List.mem_cons_of_mem _ member, closed,
            fun x => ?_⟩
          rw [known, defines_declare, List.map_cons, List.mem_cons,
            or_assoc]

/-- Completion takes no name away that is free without the named
arguments. -/
theorem mem_supply_of_withoutNamed (later : Registry) {x : Name} {t : Term}
    (h : x ∈ t.withoutNamed.occurrences) :
    x ∈ (later.supply t).occurrences := by
  apply mem_of_mem_withoutNamed
  rw [supply, withoutNamed_supplyUnder]
  exact h

/-- A parameter is free in a constructor's type, closed and completed,
exactly if it was defined when the type was closed. -/
theorem mem_constructor_iff (later : Registry) {x : Name}
    {params : List Name} (target : Name) (args : List Term)
    (param : x ∈ params) (starts : x.isImplicitable = true) :
    x ∈ (later.supply (r.generalise
        (arrows argumentBinder args (dataResult target params))).1).freeNames
      ↔ r.defines x = true := by
  let type := arrows argumentBinder args (dataResult target params)
  have other : x ≠ argumentBinder := by
    rintro rfl
    exact absurd starts (by decide)
  have spelled : x ∈ type.withoutNamed.occurrences :=
    mem_withoutNamed_arrows (mem_withoutNamed_dataResult target param)
      other args
  have new : x ∈ r.newImplicits type ↔ ¬r.defines x = true := by
    rw [mem_newImplicits, Bool.not_eq_true]
    exact ⟨fun h => h.2.2,
      fun h => ⟨mem_of_mem_withoutNamed type spelled, starts, h⟩⟩
  show x ∈ (later.supply
    (type.bindImplicits (r.newImplicits type))).freeNames ↔ _
  rw [mem_freeNames]
  constructor
  · intro free
    have inClosed := later.mem_of_mem_supplyUnder [] _ free
    have unbound := (mem_occurrences_bindImplicits.1 inClosed).2
    exact not_not.1 fun undefined => unbound (new.2 undefined)
  · intro defined
    apply mem_supply_of_withoutNamed
    exact mem_withoutNamed_bindImplicits spelled fun h => new.1 h defined

end Registry

-- ======================================================== the kind

namespace Grammar

/-- A kind has an arrow from `Set` for every parameter. -/
theorem dataKind_eq (params : List Name) :
    dataKind params = arrows argumentBinder
      (List.replicate params.length (.set none)) (.set none) := by
  rw [dataKind, List.map_const']

/-- Nothing is free in it, so that closing leaves it as it is. -/
theorem generalise_dataKind (r : Registry) (params : List Name) :
    (r.generalise (dataKind params)).1 = dataKind params := by
  have closed : (dataKind params).occurrences = [] := by
    unfold dataKind arrows
    induction params with
    | nil => rfl
    | cons x params ih =>
        rw [List.map_cons, List.foldr_cons, occurrences, ih]
        rfl
  have none : r.newImplicits (dataKind params) = [] := by
    refine List.eq_nil_iff_forall_not_mem.2 fun x new => ?_
    have free := (r.mem_newImplicits.1 new).1
    rw [closed] at free
    cases free
  show (dataKind params).bindImplicits (r.newImplicits (dataKind params)) = _
  rw [none]
  rfl

/-- Nothing is applied in it, so that there is nothing to complete. -/
theorem supply_dataKind (r : Registry) (params : List Name) :
    r.supply (dataKind params) = dataKind params := by
  have under : ∀ bound,
      r.supplyUnder bound (dataKind params) = dataKind params := by
    unfold dataKind arrows
    induction params with
    | nil => exact fun _ => rfl
    | cons x params ih =>
        intro bound
        rw [List.map_cons, List.foldr_cons, Registry.supplyUnder,
          Registry.supplyUnder, ih]
  exact under []

-- ==================================================== declarations

/-- A data type by its parameters, up to the equals sign. -/
def dataHead (target : Label) (params : List String) : List Lexeme :=
  .reserved "data" :: (target.lexemes ++ (params.map .ident
    ++ [.operator "="]))

section
variable {inp : Input} {r r' : Registry} {i j k : Nat} {d : Decl}
  {target : Label} {params : List String}

/-- What is read where a data type with parameters stands is one of that
name, with that many arrows in its kind. A parameter is free in a
constructor's type if it was defined before, has the name of the data
type or of a constructor before that one, and is bound in it if not. -/
theorem DeclForm.parameters (standard : inp.language = .standard)
    (h : DeclForm inp r i k d r')
    (stands : Stands inp i (dataHead target params) j) (later : Registry) :
    ∃ constructors : List (Name × Term),
      d.mapTerms later.supply = .data ⟨target.name,
        arrows argumentBinder
          (List.replicate params.length (.set none)) (.set none),
        constructors⟩
      ∧ ∀ front c back, constructors = front ++ c :: back →
        ∀ p ∈ params, (Name.ofText p).isImplicitable = true →
          (Name.ofText p ∈ c.2.freeNames ↔ r.defines (.ofText p) = true
            ∨ .ofText p = target.name
            ∨ .ofText p ∈ front.map Prod.fst) := by
  obtain ⟨word, stands⟩ := stands
  obtain ⟨l, label, stands⟩ := stands_append.1 stands
  obtain ⟨m, listed, equals, rfl⟩ := stands_append.1 stands
  obtain ⟨x, l', named, shape⟩ := h.data_cases word
  obtain ⟨-, rfl, rfl⟩ := named.of_label standard label
  rcases shape with ⟨_, _, _, _, _, _, ascribed, -⟩ |
    ⟨found, m', cs, typed, reads, -, -, declared, rfl⟩
  · have colon := (reads_announced_cases ascribed).1
    exact absurd colon (ne_colon_of_params listed equals)
  obtain ⟨rfl, -⟩ := reads.unique
    (reads_params listed (by simp [Token.kind, equals, Lexeme.kind]))
  refine ⟨typed.map fun a => (a.1, later.supply a.2), ?_, ?_⟩
  · rw [generalise_dataKind]
    show Decl.data ⟨target.name, later.supply (dataKind _), _⟩ = _
    rw [supply_dataKind, dataKind_eq, List.length_map]
  intro front c back split p hp starts
  -- the constructor as it was closed
  obtain ⟨front, back', rfl, rfl, rest⟩ := List.map_eq_append_iff.1 split
  obtain ⟨c, back, rfl, rfl, rfl⟩ := List.map_eq_cons_iff.1 rest
  rw [Registry.declareAll_eq_declareTyped] at declared
  obtain ⟨q, type, member, closed, known⟩ :=
    Registry.closed_of_declareTyped (congrArg Prod.fst declared)
  obtain ⟨⟨y, args⟩, -, made⟩ := List.mem_map.1 member
  obtain ⟨-, rfl⟩ := Prod.ext_iff.1 made
  have param : Name.ofText p ∈ params.map .ofText :=
    List.mem_map.2 ⟨p, hp, rfl⟩
  show _ ∈ (later.supply c.2).freeNames ↔ _
  rw [closed]
  exact (Registry.mem_constructor_iff later target.name args param
    starts).trans <| by
      rw [known, Registry.defines_declare, or_assoc, List.map_map]
      rfl

end

end Grammar

end DepLang
