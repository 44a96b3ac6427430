/-
Elaborating a second time. Every call site of a completed term has all
its implicit arguments, so completing it again changes nothing
(`supply_supply`), and no name of a closed type is left to be bound, so
closing it again adds nothing, as long as no name is bound twice at its
front, once without a type (`declare_again`). Neither depends on how the machine names what
the user does not: a type that was closed, completed and then read back,
up to its outline, is declared as it was at first.

The argument rests on three facts about completion: it commutes with the
outline, since no reference means a machine's name; it is idempotent;
and it adds no references.
-/
import DepLang.Proofs.Grammar.Canonical
import DepLang.Proofs.Grammar.DeclCases
import DepLang.Proofs.Grammar.Records
import DepLang.Proofs.Term.Outline

namespace DepLang

open Term

-- ================================================= named arguments

/-- What a completed argument is: one that was given, or a hole under a
declared name. -/
theorem of_mem_completeNamed {declared : List Name}
    {given : List (Name × Term)} {a : Name × Term}
    (h : a ∈ completeNamed declared given) :
    a ∈ given ∨ a.1 ∈ declared ∧ a.2 = .hole none := by
  unfold completeNamed at h
  rcases List.mem_append.1 h with h | h
  · obtain ⟨x, member, rfl⟩ := List.mem_map.1 h
    cases found : given.reverse.lookup x with
    | none => exact .inr ⟨member, rfl⟩
    | some t =>
        obtain ⟨before, after, split, -⟩ :=
          List.lookup_eq_some_iff.1 found
        have there : (x, t) ∈ given.reverse := by
          rw [split]
          exact List.mem_append_right _ List.mem_cons_self
        exact .inl (List.mem_reverse.1 there)
  · exact .inl (List.mem_filter.1 h).1

/-- The value that a list pairs with each of its members. -/
theorem lookup_map_pair {v : Name → Term} {x : Name} {names : List Name}
    (h : x ∈ names) :
    (names.map fun y => (y, v y)).lookup x = some (v x) := by
  induction names with
  | nil => cases h
  | cons y names ih =>
      rw [List.map_cons, List.lookup_cons]
      cases same : x == y with
      | true => rw [eq_of_beq same]
      | false =>
          rcases List.mem_cons.1 h with rfl | h
          · simp at same
          · exact ih h

theorem completeNamed_eq (declared : List Name)
    (given : List (Name × Term)) :
    completeNamed declared given
      = (declared.map fun x =>
          (x, (given.reverse.lookup x).getD (.hole none)))
        ++ given.filter fun a => a.1 ∉ declared :=
  rfl

/-- The names of completed arguments: the declared ones, and those given
besides. -/
theorem map_fst_completeNamed (declared : List Name)
    (given : List (Name × Term)) :
    (completeNamed declared given).map Prod.fst
      = declared ++ (given.map Prod.fst).filter (· ∉ declared) := by
  rw [completeNamed_eq, List.map_append, List.map_map, List.filter_map]
  exact congrArg (· ++ _) (List.map_id declared)

/-- Complete arguments are completed to themselves. -/
theorem completeNamed_completeNamed (declared : List Name)
    (given : List (Name × Term)) :
    completeNamed declared (completeNamed declared given)
      = completeNamed declared given := by
  let v (x : Name) := (given.reverse.lookup x).getD (.hole none)
  let other := given.filter fun a => a.1 ∉ declared
  have known (x : Name) (h : x ∈ declared) :
      (((declared.map fun y => (y, v y)) ++ other).reverse.lookup x).getD
        (.hole none) = v x := by
    have apart : other.reverse.lookup x = none := by
      refine List.lookup_eq_none_iff.2 fun a ha => ?_
      have not_declared := (List.mem_filter.1 (List.mem_reverse.1 ha)).2
      have : x ≠ a.1 := fun same => by simp [← same, h] at not_declared
      simpa using this
    rw [List.reverse_append, List.lookup_append, apart, Option.none_or,
      ← List.map_reverse, lookup_map_pair (List.mem_reverse.2 h)]
    rfl
  have unknown :
      (((declared.map fun y => (y, v y)) ++ other).filter
        fun a => a.1 ∉ declared) = other := by
    have none_declared : ((declared.map fun y => (y, v y)).filter
        fun a => a.1 ∉ declared) = [] := by
      simp [List.filter_eq_nil_iff]
    rw [List.filter_append, none_declared, List.nil_append,
      List.filter_filter]
    simp [other]
  show completeNamed declared ((declared.map fun y => (y, v y)) ++ other)
    = (declared.map fun y => (y, v y)) ++ other
  rw [completeNamed_eq, unknown]
  congr 1
  exact List.map_congr_left fun x h => congrArg (x, ·) (known x h)

namespace Registry

variable (r : Registry)

theorem of_mem_completeFor {x : Name} {given : List (Name × Term)}
    {a : Name × Term} (h : a ∈ r.completeFor x given) :
    a ∈ given ∨ a.1 ∈ r.implicitsOf x ∧ a.2 = .hole none := by
  unfold completeFor at h
  cases known : r.implicitsOf x with
  | nil =>
      rw [known] at h
      exact .inl h
  | cons y names =>
      rw [known] at h
      exact of_mem_completeNamed h

theorem completeFor_completeFor (x : Name) (given : List (Name × Term)) :
    r.completeFor x (r.completeFor x given) = r.completeFor x given := by
  unfold completeFor
  cases r.implicitsOf x with
  | nil => rfl
  | cons y names => exact completeNamed_completeNamed _ _

-- ====================================================== completing

theorem supplyAll_eq_map (bound : List Name) (ts : List Term) :
    r.supplyAll bound ts = ts.map (r.supplyUnder bound) := by
  induction ts with
  | nil => rw [supplyAll, List.map_nil]
  | cons t ts ih => rw [supplyAll, List.map_cons, ih]

theorem supplyNamed_eq_map (bound : List Name)
    (ts : List (Name × Term)) :
    r.supplyNamed bound ts
      = ts.map (Prod.map id (r.supplyUnder bound)) := by
  induction ts with
  | nil => rw [supplyNamed, List.map_nil]
  | cons a ts ih => rw [supplyNamed, List.map_cons, ih]; rfl

/-- The holes that are supplied need nothing. -/
theorem supplyNamed_completeFor (bound : List Name) (x : Name)
    (given : List (Name × Term)) :
    r.supplyNamed bound (r.completeFor x given)
      = r.completeFor x (r.supplyNamed bound given) := by
  rw [supplyNamed_eq_map, supplyNamed_eq_map]
  exact r.map_completeFor (by rw [supplyUnder]) x given

theorem definitionHead?_supplyUnder (bound : List Name) (t : Term) :
    definitionHead? bound (r.supplyUnder bound t)
      = definitionHead? bound t := by
  cases t with
  | app fn xs ts =>
      simp only [supplyUnder]
      cases definitionHead? bound fn <;> rfl
  | _ => simp only [supplyUnder, definitionHead?]

mutual

/-- A completed term is complete. -/
theorem supplyUnder_supplyUnder (bound : List Name) (t : Term) :
    r.supplyUnder bound (r.supplyUnder bound t)
      = r.supplyUnder bound t := by
  cases t with
  | ref | hole | set => simp only [supplyUnder]
  | quote t | hidden t =>
      simp only [supplyUnder, supplyUnder_supplyUnder bound t]
  | app fn xs ts =>
      simp only [supplyUnder]
      cases head : definitionHead? bound fn with
      | some x =>
          simp only [supplyUnder, head, supplyNamed_completeFor,
            supplyNamed_supplyNamed bound xs, completeFor_completeFor,
            supplyAll_supplyAll bound ts]
      | none =>
          simp only [supplyUnder, definitionHead?_supplyUnder, head,
            supplyUnder_supplyUnder bound fn,
            supplyNamed_supplyNamed bound xs, supplyAll_supplyAll bound ts]
  | lam x t b | pi p x t b =>
      simp only [supplyUnder, supplyUnder_supplyUnder bound t,
        supplyUnder_supplyUnder (x :: bound) b]

/-- The same of positional arguments. -/
theorem supplyAll_supplyAll (bound : List Name) (ts : List Term) :
    r.supplyAll bound (r.supplyAll bound ts) = r.supplyAll bound ts := by
  cases ts with
  | nil => simp only [supplyAll]
  | cons t ts =>
      simp only [supplyAll, supplyUnder_supplyUnder bound t,
        supplyAll_supplyAll bound ts]

/-- The same of named arguments. -/
theorem supplyNamed_supplyNamed (bound : List Name)
    (ts : List (Name × Term)) :
    r.supplyNamed bound (r.supplyNamed bound ts)
      = r.supplyNamed bound ts := by
  match ts with
  | [] => simp only [supplyNamed]
  | (x, t) :: ts =>
      simp only [supplyNamed, supplyUnder_supplyUnder bound t,
        supplyNamed_supplyNamed bound ts]

end

/-- Completing a term twice is completing it once. -/
theorem supply_supply (t : Term) : r.supply (r.supply t) = r.supply t :=
  r.supplyUnder_supplyUnder [] t

end Registry

-- ========================================================== outlines

/-- The term refers to nothing by a name of the machine's. -/
def Term.RefersToUser (t : Term) : Prop :=
  ∀ u ∈ t.subterms, ∀ index tag σ, u ≠ .ref (.machine index tag) σ

/-- The binders bind the same names of the user's. -/
def BindAlike (bound bound' : List Name) : Prop :=
  ∀ segments, .user segments ∈ bound ↔ .user segments ∈ bound'

theorem BindAlike.cons {bound bound' : List Name}
    (h : BindAlike bound bound') (x : Name) :
    BindAlike (x :: bound) (x :: bound') := by
  intro segments
  simp only [List.mem_cons, h segments]

/-- Which name the machine gave a binder makes no difference. -/
theorem BindAlike.outline {bound bound' : List Name}
    (h : BindAlike bound bound') (p : Plicity) (x : Name) :
    BindAlike (x :: bound) (outlineBinder p x :: bound') := by
  cases x with
  | user segments =>
      have same : outlineBinder p (.user segments) = .user segments := by
        cases p <;> rfl
      rw [same]
      exact h.cons _
  | machine index tag =>
      intro segments
      cases p <;> simp [outlineBinder, arrowBinder, h segments]

namespace Registry

variable (r : Registry)

theorem outlineNamed_completeFor (x : Name)
    (given : List (Name × Term)) :
    outlineNamed (r.completeFor x given)
      = r.completeFor x (outlineNamed given) := by
  rw [outlineNamed_eq_map, outlineNamed_eq_map]
  exact r.map_completeFor rfl x given

theorem definitionHead?_outline {bound bound' : List Name}
    (alike : BindAlike bound bound') {t : Term}
    (user : t.RefersToUser) :
    definitionHead? bound' t.outline = definitionHead? bound t := by
  cases t with
  | ref x σ =>
      cases x with
      | user segments =>
          simp only [outline, definitionHead?, alike segments]
      | machine index tag =>
          exact absurd rfl (user _ List.mem_cons_self index tag σ)
  | _ => rfl

mutual

/-- Completing a term and taking its outline, in either order. -/
theorem outline_supplyUnder {bound bound' : List Name}
    (alike : BindAlike bound bound') (t : Term)
    (user : ∀ u ∈ t.subterms, ∀ index tag σ,
      u ≠ .ref (.machine index tag) σ) :
    (r.supplyUnder bound t).outline
      = r.supplyUnder bound' t.outline := by
  cases t with
  | ref | hole | set => simp only [supplyUnder, outline]
  | quote t | hidden t =>
      simp only [subterms, List.forall_mem_cons] at user
      simp only [supplyUnder, outline, outline_supplyUnder alike t user.2]
  | app fn xs ts =>
      simp only [subterms, List.forall_mem_cons,
        List.forall_mem_append] at user
      obtain ⟨-, ⟨inHead, inNamed⟩, inArgs⟩ := user
      simp only [supplyUnder, outline,
        definitionHead?_outline alike inHead]
      cases definitionHead? bound fn with
      | some x =>
          simp only [outline, outlineNamed_completeFor,
            outlineNamed_supplyNamed alike xs inNamed,
            outlineAll_supplyAll alike ts inArgs]
      | none =>
          simp only [outline, outline_supplyUnder alike fn inHead,
            outlineNamed_supplyNamed alike xs inNamed,
            outlineAll_supplyAll alike ts inArgs]
  | lam x t b =>
      simp only [subterms, List.forall_mem_cons,
        List.forall_mem_append] at user
      simp only [supplyUnder, outline,
        outline_supplyUnder alike t user.2.1,
        outline_supplyUnder (alike.cons x) b user.2.2]
  | pi p x t b =>
      simp only [subterms, List.forall_mem_cons,
        List.forall_mem_append] at user
      simp only [supplyUnder, outline,
        outline_supplyUnder alike t user.2.1,
        outline_supplyUnder (alike.outline p x) b user.2.2]

/-- The same of positional arguments. -/
theorem outlineAll_supplyAll {bound bound' : List Name}
    (alike : BindAlike bound bound') (ts : List Term)
    (user : ∀ u ∈ subtermsAll ts, ∀ index tag σ,
      u ≠ .ref (.machine index tag) σ) :
    outlineAll (r.supplyAll bound ts)
      = r.supplyAll bound' (outlineAll ts) := by
  cases ts with
  | nil => simp only [supplyAll, outlineAll]
  | cons t ts =>
      simp only [subtermsAll, List.forall_mem_append] at user
      simp only [supplyAll, outlineAll,
        outline_supplyUnder alike t user.1,
        outlineAll_supplyAll alike ts user.2]

/-- The same of named arguments. -/
theorem outlineNamed_supplyNamed {bound bound' : List Name}
    (alike : BindAlike bound bound') (ts : List (Name × Term))
    (user : ∀ u ∈ subtermsNamed ts, ∀ index tag σ,
      u ≠ .ref (.machine index tag) σ) :
    outlineNamed (r.supplyNamed bound ts)
      = r.supplyNamed bound' (outlineNamed ts) := by
  match ts with
  | [] => simp only [supplyNamed, outlineNamed]
  | (x, t) :: ts =>
      simp only [subtermsNamed, List.forall_mem_append] at user
      simp only [supplyNamed, outlineNamed,
        outline_supplyUnder alike t user.1,
        outlineNamed_supplyNamed alike ts user.2]

end

/-- What was completed and is found again, up to its outline, is
completed to the same outline. -/
theorem outline_supply_again {t u : Term} (user : t.RefersToUser)
    (again : u.erase = (r.supply t).outline) :
    (r.supply u).outline = (r.supply t).outline := by
  have through : (r.supply t).outline = r.supply t.outline :=
    r.outline_supplyUnder (fun _ => Iff.rfl) t user
  refine outline_of_erase ?_
  calc (r.supply u).erase
      = r.supply u.erase := r.erase_supply u
    _ = r.supply (r.supply t.outline) := by rw [again, through]
    _ = (r.supply t).outline := by rw [supply_supply, through]

end Registry

-- ============================================================ names

namespace Term

theorem mem_occurrencesAll {x : Name} {ts : List Term} :
    x ∈ occurrencesAll ts ↔ ∃ t ∈ ts, x ∈ t.occurrences := by
  induction ts with
  | nil => simp [occurrencesAll]
  | cons t ts ih => simp [occurrencesAll, ih]

theorem mem_occurrencesNamed {x : Name} {ts : List (Name × Term)} :
    x ∈ occurrencesNamed ts ↔ ∃ a ∈ ts, x ∈ a.2.occurrences := by
  induction ts with
  | nil => simp [occurrencesNamed]
  | cons a ts ih => simp [occurrencesNamed, ih]

/-- Binding names in front of a type takes out their occurrences. -/
theorem occurrences_bindImplicits (names : List Name) (type : Term) :
    (type.bindImplicits names).occurrences
      = type.occurrences.filter (· ∉ names) := by
  unfold bindImplicits
  induction names with
  | nil => simp
  | cons y names ih =>
      rw [List.foldr_cons, occurrences, occurrences, List.nil_append, ih,
        List.filter_filter]
      apply List.filter_congr
      intro x _
      by_cases same : x = y <;> simp [same]

/-- Names bound in front of a type are not free in it any more. -/
theorem mem_occurrences_bindImplicits {x : Name} {names : List Name}
    {type : Term} :
    x ∈ (type.bindImplicits names).occurrences
      ↔ x ∈ type.occurrences ∧ x ∉ names := by
  rw [occurrences_bindImplicits, List.mem_filter, decide_eq_true_eq]

theorem RefersToUser.bindImplicits {type : Term}
    (h : type.RefersToUser) (names : List Name) :
    (type.bindImplicits names).RefersToUser := by
  unfold Term.bindImplicits
  induction names with
  | nil => exact h
  | cons y names ih =>
      rw [List.foldr_cons]
      simp only [RefersToUser, subterms, List.forall_mem_cons,
        List.forall_mem_append]
      exact ⟨by simp, ⟨by simp, by simp⟩, ih⟩

end Term

namespace Registry

variable (r : Registry)

mutual

/-- Completing a term adds no references. -/
theorem mem_of_mem_supplyUnder {x : Name} (bound : List Name) (t : Term)
    (h : x ∈ (r.supplyUnder bound t).occurrences) :
    x ∈ t.occurrences := by
  cases t with
  | ref | hole | set => simpa only [supplyUnder] using h
  | quote t | hidden t =>
      simp only [supplyUnder, occurrences] at h ⊢
      exact mem_of_mem_supplyUnder bound t h
  | app fn xs ts =>
      simp only [supplyUnder] at h
      cases head : definitionHead? bound fn with
      | some y =>
          simp only [head, occurrences, List.mem_append] at h ⊢
          rcases h with (h | h) | h
          · exact .inl (.inl h)
          · obtain ⟨a, member, inValue⟩ := mem_occurrencesNamed.1 h
            rcases r.of_mem_completeFor member with given | ⟨-, hole⟩
            · exact .inl (.inr (mem_of_mem_supplyNamed bound xs
                (mem_occurrencesNamed.2 ⟨a, given, inValue⟩)))
            · rw [hole] at inValue
              cases inValue
          · exact .inr (mem_of_mem_supplyAll bound ts h)
      | none =>
          simp only [head, occurrences, List.mem_append] at h ⊢
          rcases h with (h | h) | h
          · exact .inl (.inl (mem_of_mem_supplyUnder bound fn h))
          · exact .inl (.inr (mem_of_mem_supplyNamed bound xs h))
          · exact .inr (mem_of_mem_supplyAll bound ts h)
  | lam y t b | pi p y t b =>
      simp only [supplyUnder, occurrences, List.mem_append,
        List.mem_filter] at h ⊢
      exact h.imp (mem_of_mem_supplyUnder bound t)
        (And.imp_left (mem_of_mem_supplyUnder (y :: bound) b))

/-- The same of positional arguments. -/
theorem mem_of_mem_supplyAll {x : Name} (bound : List Name)
    (ts : List Term) (h : x ∈ occurrencesAll (r.supplyAll bound ts)) :
    x ∈ occurrencesAll ts := by
  cases ts with
  | nil => simpa only [supplyAll] using h
  | cons t ts =>
      simp only [supplyAll, occurrencesAll, List.mem_append] at h ⊢
      exact h.imp (mem_of_mem_supplyUnder bound t)
        (mem_of_mem_supplyAll bound ts)

/-- The same of named arguments. -/
theorem mem_of_mem_supplyNamed {x : Name} (bound : List Name)
    (ts : List (Name × Term))
    (h : x ∈ occurrencesNamed (r.supplyNamed bound ts)) :
    x ∈ occurrencesNamed ts := by
  match ts with
  | [] => simpa only [supplyNamed] using h
  | (y, t) :: ts =>
      simp only [supplyNamed, occurrencesNamed, List.mem_append] at h ⊢
      exact h.imp (mem_of_mem_supplyUnder bound t)
        (mem_of_mem_supplyNamed bound ts)

end

-- ========================================================== closing

theorem mem_newImplicits {type : Term} {x : Name} :
    x ∈ r.newImplicits type
      ↔ x ∈ type.occurrences ∧ x.isImplicitable = true
        ∧ r.defines x = false := by
  unfold newImplicits
  rw [List.mem_filter, mem_freeNames, Bool.and_eq_true,
    Bool.not_eq_true']

end Registry

/-- A name bound at the front of the type, its own type left open, is not
bound there again. -/
def Term.BoundOnce : Term → Prop
  | .pi .implicit x (.hole _) body _ =>
    x ∉ body.leadingImplicits ∧ body.BoundOnce
  | .pi .implicit _ _ body _ => body.BoundOnce
  | _ => True

/-- What closes a type is not bound at its front already. -/
theorem Term.BoundOnce.apart {r : Registry} {names : List Name}
    {type : Term} :
    ∀ {bound : List Name},
      (r.supplyUnder bound (type.bindImplicits names)).BoundOnce →
      ∀ x ∈ names, x ∉ type.leadingImplicits := by
  induction names with
  | nil => exact fun _ x hx => by cases hx
  | cons y names ih =>
      intro bound once
      simp only [bindImplicits, List.foldr_cons, Registry.supplyUnder,
        BoundOnce] at once
      obtain ⟨fresh, inner⟩ := once
      rw [r.leadingImplicits_supplyUnder, ← bindImplicits.eq_def,
        leadingImplicits_bindImplicits, List.mem_append, not_or] at fresh
      exact List.forall_mem_cons.2 ⟨fresh.2, ih inner⟩

namespace Registry

variable {r : Registry}

/-- A type that was closed, completed and found again, up to its
outline, is closed as it is found, with the same implicit arguments. -/
theorem generalise_again {last : Registry} {t u : Term}
    (once : (last.supply (r.generalise t).1).BoundOnce)
    (again : u.erase = (last.supply (r.generalise t).1).outline) :
    r.generalise u = (u, (r.generalise t).2) := by
  have leading : u.leadingImplicits
      = r.newImplicits t ++ t.leadingImplicits := by
    rw [← leadingImplicits_erase u, again, leadingImplicits_outline,
      supply, leadingImplicits_supplyUnder]
    exact leadingImplicits_bindImplicits _ t
  -- what is free in the new type was free in the closed one
  have closed : r.newImplicits u = [] := by
    refine List.eq_nil_iff_forall_not_mem.2 fun x new => ?_
    obtain ⟨free, starts, undefined⟩ := r.mem_newImplicits.1 new
    cases x with
    | machine index tag => cases starts
    | user segments =>
        rw [← occurrences_erase u, again, mem_occurrences_outline] at free
        have inClosed := last.mem_of_mem_supplyUnder [] _ free
        obtain ⟨there, unbound⟩ := mem_occurrences_bindImplicits.1 inClosed
        exact unbound (r.mem_newImplicits.2 ⟨there, starts, undefined⟩)
  have apart : t.leadingImplicits.filter (· ∉ r.newImplicits t)
      = t.leadingImplicits := by
    refine List.filter_eq_self.2 fun x hx => ?_
    simpa using fun new => once.apart x new hx
  show (u.bindImplicits (r.newImplicits u), r.newImplicits u
      ++ u.leadingImplicits.filter (· ∉ r.newImplicits u))
    = (u, r.newImplicits t
      ++ t.leadingImplicits.filter (· ∉ r.newImplicits t))
  rw [closed, leading, apart]
  simp [bindImplicits]

/-- Such a type is declared as the first one was. -/
theorem declare_again {last : Registry} {t u : Term} (target : Name)
    (once : (last.supply (r.generalise t).1).BoundOnce)
    (again : u.erase = (last.supply (r.generalise t).1).outline) :
    r.declare target u = r.declare target t := by
  unfold declare
  rw [generalise_again once again]

end Registry

end DepLang
