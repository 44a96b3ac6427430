/-
Sessions by their ledger. The journal makes it possible to go back
without a copy of the implicit arguments; what it comes to is said here
without a journal. A ledger is the present fixities and the stack of the
definitions that stand: declaring pushes onto the stack, going back to a
snapshot cuts the stack down to the snapshot's height, if it is any
higher, and brings back the snapshot's fixities, and a module that is
read pushes one definition for every type that it declares, while one
that fails leaves the ledger as it was.

The invariant is that the session's registry is the one it started with,
with the stack replayed on it (`Ledger.registry`). It holds whatever the
order of commands is, and also where a snapshot is restored that was
taken at a height from which the stack has been cut down and grown again
since: the height counts, and not what stood there. From the invariant
it follows that undoing a definition never meets a name without an
entry, and that a snapshot comes back exactly if nothing below it has
been cut in the meantime.
-/
import DepLang.Proofs.Reader.Records
import DepLang.Proofs.Script.Built
import DepLang.Session

namespace DepLang

open DepLang.Parser

-- ======================================================== undoing

/-- However many definitions are undone, the next one to be undone is of
a name that has an entry. -/
def Registry.Undoable (r : Registry) : Prop :=
  ∀ n entry older, (r.undo n).journal = entry :: older →
    (r.undo n).defines entry.name

/-- A replay on a registry without a journal can be undone. -/
theorem Registry.undoable_replay {base : Registry}
    (fresh : base.journal = []) (ds : List (Name × List Name))
    (table : FixityTable) : (base.replay ds table).Undoable := by
  intro n entry older newest
  have height : ((base.replay ds table).undo n).journal.length
      = ds.length - n := by
    rw [length_journal_undo, length_journal_replay, fresh]
    simp
  rw [newest, List.length_cons] at height
  rw [undo_replay base ds table (by omega)] at newest ⊢
  -- what stands is a definition and those before it
  rcases List.eq_nil_or_concat (ds.take (ds.length - n)) with none | some
  · rw [none] at newest
    have empty : (base.replay [] table).journal = [] := fresh
    rw [empty] at newest
    cases newest
  · obtain ⟨before, d, split⟩ := some
    rw [split, List.concat_eq_append, ← define_replay] at newest ⊢
    obtain ⟨rfl, -⟩ := List.cons.inj newest
    unfold defines
    rw [implicitsOf?_define]
    simp

-- ========================================================= ledgers

/-- The fixities, the definitions that stand, oldest first, and the
snapshots taken. -/
structure Ledger where
  fixities : FixityTable := []
  definitions : List (Name × List Name) := []
  snapshots : List Snapshot := []

namespace Ledger

/-- The registry of a session that started with `base`. -/
def registry (base : Registry) (l : Ledger) : Registry :=
  base.replay l.definitions l.fixities

/-- What a command does to a ledger. -/
inductive Step (base : Registry) : Ledger → Command → Ledger → Prop
  | addFixities (l : Ledger) (entries : List FixityEntry) :
      Step base l (.addFixities entries)
        { l with fixities := l.fixities.add entries }
  | define (l : Ledger) (name : Name) (names : List Name) :
      Step base l (.define name names)
        { l with definitions := l.definitions ++ [(name, names)] }
  | snapshot (l : Ledger) :
      Step base l .snapshot
        { l with
          snapshots :=
            l.snapshots ++ [⟨l.fixities, l.definitions.length⟩] }
  | restore {l : Ledger} {index : Nat} {snap : Snapshot}
      (taken : l.snapshots[index]? = some snap) :
      Step base l (.restore index)
        { l with
          fixities := snap.fixities
          definitions :=
            l.definitions.take (min snap.height l.definitions.length) }
  | neverTaken {l : Ledger} {index : Nat}
      (absent : l.snapshots[index]? = none) :
      Step base l (.restore index) l
  | stopped {l : Ledger} {lang : Language} {filename text : String}
      {stop : Stop}
      (stopped : (DepLang.readModule lang filename text
        (l.registry base)).outcome = .error stop) :
      Step base l (.readModule lang filename text) l
  | read {l : Ledger} {lang : Language} {filename text : String}
      {decls : List Decl} {table : FixityTable}
      {ds : List (Name × List Name)}
      (found : (DepLang.readModule lang filename text
        (l.registry base)).outcome = .ok decls)
      (fixities : table.Perm (decls.flatMap Decl.entries ++ l.fixities))
      (types : List.Forall₂ RecordsType ds (decls.flatMap Decl.types)) :
      Step base l (.readModule lang filename text)
        { l with fixities := table, definitions := l.definitions ++ ds }

/-- What commands do to a ledger, in order. -/
inductive Run (base : Registry) : Ledger → List Command → Ledger → Prop
  | nil (l : Ledger) : Run base l [] l
  | cons {l l' l'' : Ledger} {c : Command} {cs : List Command}
      (first : Step base l c l') (rest : Run base l' cs l'') :
      Run base l (c :: cs) l''

end Ledger

-- ======================================================== sessions

namespace Session

/-- A session is as its ledger says. -/
structure Keeps (base : Registry) (s : Session) (l : Ledger) : Prop where
  registry : s.registry = l.registry base
  snapshots : s.snapshots = l.snapshots

variable {base : Registry} {s : Session} {l : Ledger}

theorem perform_restore {index : Nat} {snap : Snapshot}
    (taken : s.snapshots[index]? = some snap) :
    s.perform (.restore index)
      = { s with registry := s.registry.restore snap } := by
  simp only [perform, taken]

theorem perform_restore_absent {index : Nat}
    (absent : s.snapshots[index]? = none) :
    s.perform (.restore index) = s := by
  simp only [perform, absent]

/-- What a module, read or not, leaves of the registry. -/
theorem readModule_cases (lang : Language) (filename text : String)
    (r : Registry) :
    (∃ stop, (DepLang.readModule lang filename text r).outcome
          = .error stop
        ∧ (DepLang.readModule lang filename text r).registry = r)
      ∨ ∃ decls, (DepLang.readModule lang filename text r).outcome = .ok decls
        ∧ r.Grows (DepLang.readModule lang filename text r).registry
          (decls.flatMap Decl.entries) (decls.flatMap Decl.types) := by
  rcases Reading.readModule_ok_or_stops lang filename text r
    with ⟨decls, found⟩ | stopped
  · exact .inr ⟨decls, found, Reading.grows_readModule found⟩
  · exact .inl stopped

/-- Every command does to the session what it does to the ledger. -/
theorem Keeps.perform (fresh : base.journal = []) (h : s.Keeps base l)
    (c : Command) : ∃ l', Ledger.Step base l c l'
      ∧ (s.perform c).Keeps base l' := by
  have height : s.registry.journal.length = l.definitions.length := by
    rw [h.registry, Ledger.registry, Registry.length_journal_replay, fresh]
    simp
  cases c with
  | addFixities entries =>
      refine ⟨_, .addFixities l entries, ?_, h.snapshots⟩
      exact congrArg (·.addFixities entries) h.registry
  | define name names =>
      refine ⟨_, .define l name names, ?_, h.snapshots⟩
      show s.registry.define name names = _
      rw [h.registry]
      exact base.define_replay _ _ name names
  | snapshot =>
      refine ⟨_, .snapshot l, h.registry, ?_⟩
      show s.snapshots ++ [⟨s.registry.fixities, s.registry.journal.length⟩]
        = _
      rw [h.snapshots, height, h.registry]
      rfl
  | restore index =>
      cases taken : s.snapshots[index]? with
      | none =>
          rw [perform_restore_absent taken]
          exact ⟨l, .neverTaken (h.snapshots ▸ taken), h⟩
      | some snap =>
          rw [perform_restore taken]
          refine ⟨_, .restore (h.snapshots ▸ taken), ?_, h.snapshots⟩
          have above : base.journal.length ≤ snap.height := by
            rw [fresh]
            exact Nat.zero_le _
          show s.registry.restore snap = base.replay _ _
          rw [h.registry, Ledger.registry,
            base.restore_replay _ _ above, fresh, ← List.take_eq_take_min]
          rfl
  | readModule lang filename text =>
      rcases readModule_cases lang filename text s.registry
        with ⟨stop, stopped, same⟩
          | ⟨decls, found, table, ds, perm, types, grown⟩
      · refine ⟨l, .stopped (h.registry ▸ stopped), ?_, h.snapshots⟩
        exact same.trans h.registry
      · rw [h.registry] at found perm
        refine ⟨_, .read found perm types, ?_, h.snapshots⟩
        show (DepLang.readModule lang filename text s.registry).registry = _
        rw [grown, h.registry]
        exact base.replay_replay _ _ _ _

theorem Keeps.performAll (fresh : base.journal = [])
    (commands : List Command) : ∀ {s : Session} {l}, s.Keeps base l →
      ∃ l', Ledger.Run base l commands l'
        ∧ (s.performAll commands).Keeps base l' := by
  induction commands with
  | nil => exact fun {_ l} h => ⟨l, .nil l, h⟩
  | cons c cs ih =>
      intro s l h
      obtain ⟨l', first, kept⟩ := h.perform fresh c
      obtain ⟨l'', rest, done⟩ := ih kept
      exact ⟨l'', .cons first rest, done⟩

-- =================================================== going back

/-- The snapshot that a command goes back to. -/
def target? (s : Session) : Command → Option Snapshot
  | .restore index => s.snapshots[index]?
  | _ => none

/-- No command goes back below the height. -/
def StaysAbove (height : Nat) (s : Session) : List Command → Prop
  | [] => True
  | c :: cs => (∀ snap ∈ s.target? c, height ≤ snap.height)
      ∧ StaysAbove height (s.perform c) cs

instance StaysAbove.decide (height : Nat) :
    ∀ (s : Session) (commands : List Command),
      Decidable (StaysAbove height s commands)
  | _, [] => isTrue trivial
  | s, c :: cs =>
    have := StaysAbove.decide height (s.perform c) cs
    inferInstanceAs (Decidable (_ ∧ _))

/-- A session that has grown out of a registry and still has the
snapshot of it. -/
structure GrownFrom (r : Registry) (index : Nat) (s : Session) : Prop where
  registry : ∃ ds table, s.registry = r.replay ds table
  snapshot : s.snapshots[index]? = some r.snapshot

/-- Until something below it is cut, the snapshot's registry stands. -/
theorem GrownFrom.perform {r : Registry} {index : Nat}
    (h : s.GrownFrom r index) {c : Command}
    (above : ∀ snap ∈ s.target? c, r.journal.length ≤ snap.height) :
    (s.perform c).GrownFrom r index := by
  obtain ⟨ds, table, grown⟩ := h.registry
  cases c with
  | addFixities entries =>
      refine ⟨⟨ds, table.add entries, ?_⟩, h.snapshot⟩
      exact congrArg (·.addFixities entries) grown
  | define name names =>
      refine ⟨⟨ds ++ [(name, names)], table, ?_⟩, h.snapshot⟩
      show s.registry.define name names = _
      rw [grown, Registry.define_replay]
  | snapshot =>
      refine ⟨⟨ds, table, grown⟩, ?_⟩
      obtain ⟨inside, -⟩ := List.getElem?_eq_some_iff.1 h.snapshot
      show (s.snapshots ++ [s.registry.snapshot])[index]? = _
      rw [List.getElem?_append_left inside, h.snapshot]
  | restore i =>
      cases taken : s.snapshots[i]? with
      | none =>
          rw [perform_restore_absent taken]
          exact h
      | some snap =>
          rw [perform_restore taken]
          have back := r.restore_replay ds table (above snap taken)
          rw [← grown] at back
          exact ⟨⟨_, _, back⟩, h.snapshot⟩
  | readModule lang filename text =>
      refine ⟨?_, h.snapshot⟩
      show ∃ ds table,
        (DepLang.readModule lang filename text s.registry).registry = _
      rcases readModule_cases lang filename text s.registry
        with ⟨-, -, same⟩ | ⟨-, -, table', ds', -, -, more⟩
      · exact ⟨ds, table, same.trans grown⟩
      · rw [more, grown]
        exact ⟨_, _, Registry.replay_replay _ _ _ _ _⟩

theorem GrownFrom.performAll {r : Registry} {index : Nat}
    (commands : List Command) : ∀ {s : Session}, s.GrownFrom r index →
      StaysAbove r.journal.length s commands →
      (s.performAll commands).GrownFrom r index := by
  induction commands with
  | nil => exact fun h _ => h
  | cons c cs ih =>
      intro s h above
      exact ih (h.perform above.1) above.2

/-- A snapshot is restored exactly if nothing below it has been cut
since it was taken. -/
theorem restore_exact (s : Session) {between : List Command}
    (above : StaysAbove s.registry.journal.length (s.perform .snapshot)
      between) :
    (((s.perform .snapshot).performAll between).perform
      (.restore s.snapshots.length)).registry = s.registry := by
  have begun : (s.perform .snapshot).GrownFrom s.registry
      s.snapshots.length :=
    ⟨⟨[], s.registry.fixities, rfl⟩, List.getElem?_concat_length⟩
  obtain ⟨⟨ds, table, grown⟩, kept⟩ := begun.performAll between above
  rw [perform_restore kept]
  show Registry.restore _ s.registry.snapshot = s.registry
  rw [grown, s.registry.restore_replay ds table (Nat.le_refl _)]
  simp [Registry.snapshot, Registry.replay_nil]

end Session

-- ============================================ going back on the way

/-- A state whose registry replays definitions on another one. -/
def State.Replays (base : Registry) (s : State) : Prop :=
  ∃ ds table, s.registry = base.replay ds table

/-- Whatever a parser does leads from replays to replays, the restores
of failed attempts included. -/
theorem Parser.lasting_replays {base : Registry}
    (fresh : base.journal = []) :
    Lasting fun t s => s.Replays base → t.Replays base where
  refl _ h := h
  trans newer older h := newer (older h)
  past inp s h := by
    obtain ⟨ds, table, same⟩ := h
    exact ⟨ds, table, (registry_past inp s).trans same⟩
  record _ _ h := h
  declareFixities entries _ _ h := by
    obtain ⟨ds, table, same⟩ := h
    exact ⟨ds, table.add entries, congrArg (·.addFixities entries) same⟩
  define name names _ s h := by
    obtain ⟨ds, table, same⟩ := h
    refine ⟨ds ++ [(name, names)], table, ?_⟩
    show s.registry.define name names = _
    rw [same, Registry.define_replay]
  rewind {t s} later h := by
    obtain ⟨ds, table, same⟩ := later h
    have above : base.journal.length ≤ s.registry.snapshot.height := by
      rw [fresh]
      exact Nat.zero_le _
    have back := base.restore_replay ds table above
    rw [← same] at back
    exact ⟨_, _, back⟩

/-- Wherever a rule stops that is alike to itself, all it has declared
can be undone. -/
theorem Parser.Alike.undoable {α : Type} {b c : Bool} {R : Likeness α}
    {p : Parser α} (h : Alike True Grammar.expr Grammar.expr b c R p p)
    {base : Registry} (fresh : base.journal = []) (inp : Input)
    {s : State} (start : s.Replays base) :
    (p inp s).state.registry.Undoable := by
  have lasting := lasting_replays fresh
  have expr := Grammar.expr_respects lasting
  obtain ⟨ds, table, same⟩ :=
    (h.respects lasting expr expr).1 inp s start
  rw [same]
  exact Registry.undoable_replay fresh ds table

/-- A session is as its ledger says, after any commands and with stale
snapshots among those restored: the implicit arguments are those of the
start with the definitions that stand entered in order, and there are as
many of these as the journal has entries. Undoing never meets a name
without an entry, neither from here nor from wherever a module or any
other program over the tokens may stop. And a snapshot taken here is
restored exactly if nothing below it has been cut. -/
theorem Session.performAll_ledger (initial : Registry)
    (fresh : initial.journal = []) (commands : List Command) :
    let s := performAll { registry := initial } commands
    (∃ l, Ledger.Run initial { fixities := initial.fixities } commands l
        ∧ s.registry.fixities = l.fixities
        ∧ s.registry.implicits = initial.implicits.putAll l.definitions
        ∧ s.registry.journal.length = l.definitions.length
        ∧ s.snapshots = l.snapshots)
      ∧ s.registry.Undoable
      ∧ (∀ inp, (Grammar.moduleItems inp
          { registry := s.registry }).state.registry.Undoable)
      ∧ (∀ {α : Type} (p : Parser α), p.Built → ∀ inp st,
        st.registry = s.registry → (p inp st).state.registry.Undoable)
      ∧ ∀ between,
        StaysAbove s.registry.journal.length (s.perform .snapshot)
          between →
        (((s.perform .snapshot).performAll between).perform
          (.restore s.snapshots.length)).registry = s.registry := by
  intro s
  have start : Keeps initial { registry := initial }
      { fixities := initial.fixities } := ⟨rfl, rfl⟩
  obtain ⟨l, run, kept⟩ := start.performAll fresh commands
  have stands : s.registry = initial.replay l.definitions l.fixities :=
    kept.registry
  have items : Alike True Grammar.expr Grammar.expr false true
      (.list (.upTo True Decl.erase)) Grammar.moduleItems
      Grammar.moduleItems := Grammar.moduleItems_alike
  refine ⟨⟨l, run, ?_, ?_, ?_, kept.snapshots⟩, ?_, fun inp => ?_,
    fun p built inp st same => ?_, fun between => s.restore_exact⟩
  · rw [stands, Registry.fixities_replay]
  · rw [stands, Registry.implicits_replay]
  · rw [stands, Registry.length_journal_replay, fresh]
    simp
  · rw [stands]
    exact Registry.undoable_replay fresh _ _
  · exact items.undoable fresh inp ⟨_, _, stands⟩
  · exact built.selfAlike.undoable fresh inp ⟨_, _, same.trans stands⟩

/-- A snapshot is restored that was taken higher than the stack has been
cut since, a module is read, another one fails, and what follows goes
back, but not as far as here. -/
theorem Session.performAll_ledger_stale :
    let f : Name := .ofText "f"
    let g : Name := .ofText "g"
    let initial : Registry :=
      { fixities := [⟨⟨.left, 6⟩, "+"⟩], implicits := [(f, [g])] }
    let commands : List Command :=
      [.define f [], .snapshot, .define g [f], .snapshot, .restore 0,
        .define g [], .define f [g], .restore 1,
        .readModule .standard "m" "infixr 3 *; k : a -> a;",
        .readModule .standard "m" "g : Set; k : ;"]
    let between : List Command :=
      [.define f [], .snapshot, .addFixities [⟨⟨.left, 1⟩, "#"⟩],
        .define f [f], .restore 3]
    let s := performAll { registry := initial } commands
    let t := (s.perform .snapshot).performAll between
    s.registry.fixities = [⟨⟨.right, 3⟩, "*"⟩, ⟨⟨.left, 6⟩, "+"⟩]
      ∧ (∃ l, Ledger.Run initial { fixities := initial.fixities }
          commands l
        ∧ l.definitions.length = 3 ∧ l.snapshots.length = 2
        ∧ s.registry.implicits = initial.implicits.putAll l.definitions)
      ∧ s.registry.Undoable
      ∧ t.registry.implicitsOf? f = some []
      ∧ (t.perform (.restore 2)).registry = s.registry := by
  intro f g initial commands between s t
  obtain ⟨⟨l, run, -, implicits, height, snapshots⟩, undoable, -, -,
    restores⟩ :=
    performAll_ledger initial rfl commands
  have three : s.registry.journal.length = 3 := by decide +kernel
  have two : s.snapshots.length = 2 := by decide +kernel
  have above : StaysAbove s.registry.journal.length (s.perform .snapshot)
      between := by decide +kernel
  refine ⟨by decide +kernel, ⟨l, run, ?_, ?_, implicits⟩, undoable,
    by decide +kernel, ?_⟩
  · exact height.symm.trans three
  · rw [← snapshots, two]
  · have restored := restores between above
    rwa [two] at restored

end DepLang
