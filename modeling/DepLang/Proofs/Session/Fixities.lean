/-
The fixities of a session. Its table stands by precedence and operator
after any commands: declaring operators inserts each at its place, and a
snapshot, however stale, is a table that stood in order when it was
taken. A module declares operators as it is read, and goes back where it
fails, so for modules the invariant is one of parsers
(`lasting_inOrder`).

What the levels are then follows from the table alone, and from its
entries without their order: however the same declarations are ordered
and batched, the levels they lead to are the same.
-/
import DepLang.Proofs.Operators.Ordered
import DepLang.Proofs.Session.Ledger

namespace DepLang

open DepLang.Parser

-- ========================================================= modules

/-- Whatever a parser does keeps the fixity table in order, the restores
of failed attempts included. -/
theorem Parser.lasting_inOrder : Lasting fun t s =>
    s.registry.fixities.InOrder → t.registry.fixities.InOrder where
  refl _ h := h
  trans newer older h := newer (older h)
  past inp s h := (congrArg (·.fixities.InOrder) (registry_past inp s)).mpr h
  record _ _ h := h
  declareFixities entries _ _ _ := FixityTable.inOrder_add entries _
  define _ _ _ _ h := h
  rewind _ h := h

/-- A module, read or not, keeps the fixity table in order. -/
theorem inOrder_readModule (lang : Language) (filename text : String)
    {r : Registry} (h : r.fixities.InOrder) :
    (readModule lang filename text r).registry.fixities.InOrder := by
  rcases Session.readModule_cases lang filename text r
    with ⟨-, -, same⟩ | ⟨decls, found, -⟩
  · rw [same]
    exact h
  · obtain ⟨items, span, ds, t, -, run, -, registry⟩ :=
      Reading.items_of_readModule found
    have kept := Grammar.moduleItems_respects lasting_inOrder
      (Reading.inputOf items ⟨.eof "", span⟩ lang filename text)
      { registry := r } h
    rw [run] at kept
    rw [registry]
    exact kept

namespace Session

-- ======================================================== sessions

/-- The fixities of a session stand in order, and so do those it can go
back to. -/
structure InOrder (s : Session) : Prop where
  present : s.registry.fixities.InOrder
  snapshots : ∀ snap ∈ s.snapshots, snap.fixities.InOrder

variable {s : Session}

theorem InOrder.perform (h : s.InOrder) (c : Command) :
    (s.perform c).InOrder := by
  cases c with
  | addFixities entries =>
      exact ⟨FixityTable.inOrder_add entries _, h.snapshots⟩
  | define name names => exact ⟨h.present, h.snapshots⟩
  | snapshot =>
      refine ⟨h.present, fun snap taken => ?_⟩
      rcases List.mem_append.1 taken with older | newest
      · exact h.snapshots snap older
      · rw [List.mem_singleton.1 newest]
        exact h.present
  | restore index =>
      cases taken : s.snapshots[index]? with
      | none =>
          rw [perform_restore_absent taken]
          exact h
      | some snap =>
          rw [perform_restore taken]
          exact ⟨h.snapshots snap (List.mem_of_getElem? taken),
            h.snapshots⟩
  | readModule lang filename text =>
      exact ⟨inOrder_readModule lang filename text h.present, h.snapshots⟩

theorem InOrder.performAll (commands : List Command) :
    ∀ {s : Session}, s.InOrder → (s.performAll commands).InOrder := by
  induction commands with
  | nil => exact id
  | cons c cs ih => exact fun h => ih (h.perform c)

theorem inOrder_performAll (commands : List Command) :
    (performAll {} commands).InOrder :=
  InOrder.performAll commands ⟨.nil, List.forall_mem_nil _⟩

-- ====================================================== declarations

/-- Batches of operators are all declared, next to those that were. -/
theorem perm_performAll_addFixities (batches : List (List FixityEntry)) :
    ∀ s : Session,
      (s.performAll (batches.map .addFixities)).registry.fixities.Perm
        (batches.flatten ++ s.registry.fixities) := by
  induction batches with
  | nil => exact fun s => .refl _
  | cons entries batches ih =>
      intro s
      have first := FixityTable.perm_add entries s.registry.fixities
      have swap : (batches.flatten ++ (entries ++ s.registry.fixities)).Perm
          (entries ++ batches.flatten ++ s.registry.fixities) := by
        rw [← List.append_assoc]
        exact List.perm_append_comm.append_right s.registry.fixities
      exact (ih _).trans ((first.append_left _).trans swap)

/-- The same operators, in any order and any batches, make the same
levels. -/
theorem levels_addFixities (h : s.InOrder)
    {batches batches' : List (List FixityEntry)}
    (same : batches.flatten.Perm batches'.flatten) :
    (s.performAll (batches.map .addFixities)).registry.fixities.levels
      = (s.performAll
          (batches'.map .addFixities)).registry.fixities.levels :=
  FixityTable.levels_eq_of_perm (h.performAll _).present
    (h.performAll _).present
    ((perm_performAll_addFixities batches s).trans
      ((same.append_right _).trans
        (perm_performAll_addFixities batches' s).symm))

/-- After any commands the fixities stand by precedence and operator.
Their levels are, tightest first, one for every precedence in use, each
with all entries of its precedence as often as they were declared, those
to the right before those to the left and these before the rest, and
then equality and the arrow. Nothing else about the commands shows: a
session with the same entries has the same levels, and so the same
operators, declared in any order and any batches, lead to the same
levels from here. -/
theorem performAll_levels (commands : List Command) :
    let s := performAll {} commands
    let table := s.registry.fixities
    table.Pairwise (fun x y => x.fixity.prec < y.fixity.prec
        ∨ x.fixity.prec = y.fixity.prec ∧ x.symbol ≤ y.symbol)
      ∧ (∃ (precs : List Nat) (declared : List Level),
        table.levels = declared ++ [Level.equality, Level.arrow]
          ∧ precs.Pairwise (· > ·)
          ∧ (∀ prec, prec ∈ precs ↔ ∃ e ∈ table, e.fixity.prec = prec)
          ∧ List.Forall₂ (fun prec level => level ≠ []
              ∧ level.Perm ((table.filter (·.fixity.prec = prec)).map
                Level.declared)
              ∧ level.Pairwise fun x y => x.assoc.turn ≤ y.assoc.turn)
            precs declared)
      ∧ (∀ commands',
        (performAll {} commands').registry.fixities.Perm table →
        (performAll {} commands').registry.fixities.levels = table.levels)
      ∧ ∀ batches batches' : List (List FixityEntry),
        batches.flatten.Perm batches'.flatten →
        (s.performAll (batches.map .addFixities)).registry.fixities.levels
          = (s.performAll
              (batches'.map .addFixities)).registry.fixities.levels := by
  intro s table
  have ordered : s.InOrder := inOrder_performAll commands
  have sorted := ordered.present.sorted
  refine ⟨ordered.present.imp FixityEntry.le_iff.1,
    ⟨table.precs, table.precs.map table.levelAt,
      FixityTable.levels_eq sorted, FixityTable.pairwise_precs sorted,
      fun _ => FixityTable.mem_precs sorted, ?_⟩,
    fun commands' perm => ?_, fun _ _ => levels_addFixities ordered⟩
  · rw [List.forall₂_map_right_iff, List.forall₂_same]
    intro prec used
    have all : (table.levelAt prec).Perm _ := FixityTable.perm_levelAt prec
    refine ⟨?_, all, Level.pairwise_ofEntries _⟩
    obtain ⟨e, he, here⟩ := (FixityTable.mem_precs sorted).1 used
    have entry : e ∈ table.filter (·.fixity.prec = prec) :=
      List.mem_filter.2 ⟨he, decide_eq_true here⟩
    have member := List.mem_map_of_mem (f := Level.declared) entry
    exact List.ne_nil_of_mem (all.mem_iff.2 member)
  · exact FixityTable.levels_eq_of_perm
      (inOrder_performAll commands').present ordered.present perm

/-- One operator to several sides at one precedence, a stale snapshot
that is restored, and a module that declares an operator. -/
theorem performAll_levels_stale :
    let plus : FixityEntry := ⟨⟨.left, 6⟩, "+"⟩
    let times : FixityEntry := ⟨⟨.left, 7⟩, "*"⟩
    let minus : FixityEntry := ⟨⟨.neither, 6⟩, "-"⟩
    let plusRight : FixityEntry := ⟨⟨.right, 6⟩, "+"⟩
    let commands : List Command :=
      [.addFixities [plus, minus], .snapshot,
        .addFixities [plusRight, times, plus], .snapshot, .restore 0,
        .addFixities [times], .restore 1,
        .readModule .standard "m" "infixr 2 ||;"]
    let s := performAll {} commands
    s.registry.fixities
        = [⟨⟨.right, 2⟩, "||"⟩, plusRight, plus, plus, minus, times]
      ∧ s.registry.fixities.levels
        = [[⟨"*", .left, .application⟩],
          [⟨"+", .right, .application⟩, ⟨"+", .left, .application⟩,
            ⟨"+", .left, .application⟩, ⟨"-", .neither, .application⟩],
          [⟨"||", .right, .application⟩], Level.equality, Level.arrow]
      ∧ (performAll {} [.addFixities [minus, times, plus],
          .addFixities [plus, plusRight, ⟨⟨.right, 2⟩, "||"⟩]]
          ).registry.fixities.levels = s.registry.fixities.levels
      ∧ (s.performAll (([[plus, times], [], [plusRight]]
          : List (List FixityEntry)).map .addFixities)
          ).registry.fixities.levels
        = (s.performAll (([[plusRight, plus], [times]]
          : List (List FixityEntry)).map .addFixities)
          ).registry.fixities.levels := by
  intro plus times minus plusRight commands s
  obtain ⟨-, -, alike, rebatched⟩ := performAll_levels commands
  refine ⟨by decide +kernel, by decide +kernel, alike _ ?_,
    rebatched _ _ ?_⟩
  · decide +kernel
  · decide +kernel

end Session

end DepLang
