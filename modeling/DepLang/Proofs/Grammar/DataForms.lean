/-
The two ways to write a data type. By its arguments it gives the
parameters and what each constructor takes; by signatures it gives the
kind and the constructors' types, each of them arrows between the same
atoms that end in the type itself. Both write the same declaration
(`Writes`): they are read under the same condition, that no operator of
the language's own is declared, and to declarations of the same outline
(`writes_byArguments`, `writes_bySignatures`).

What is read before the condition can fail is read in both directions:
from the forms, that names and atoms stand where the text has them, and
from where they stand, the forms. That a list of constructors is read in
one form only up to its semicolon holds by induction on the list, and
the registry, which changes from signature to signature, keeps its
operators all along.
-/
import DepLang.Proofs.Grammar.Atoms
import DepLang.Proofs.Grammar.Proper
import DepLang.Proofs.Printer.DeclRoundtrip

namespace DepLang

open DepLang.Grammar DepLang.Parser DepLang.Term

-- ========================================================= spelling

namespace Grammar

/-- A name where it is declared: a word, or an operator in
parentheses. -/
inductive Label where
  | word (text : String)
  | operator (text : String)

namespace Label

/-- The name that is declared. -/
def name : Label → Name
  | .word text | .operator text => .ofText text

def lexemes : Label → List Lexeme
  | .word text => [.ident text]
  | .operator text => [.ofMark .lparen, .operator text, .ofMark .rparen]

/-- All names can be declared but the operators of the language. -/
def Declarable : Label → Prop
  | .word _ => True
  | .operator text => Language.standard.isReservedOperator text = false

instance : (c : Label) → Decidable c.Declarable
  | .word _ => inferInstanceAs (Decidable True)
  | .operator _ => inferInstanceAs (Decidable (_ = _))

end Label

/-- What the two ways to write a data type have in common: its name and
its parameters, and each constructor with the atoms it takes. -/
structure DataText where
  target : Label
  params : List String
  first : Label × List (List Lexeme)
  others : List (Label × List (List Lexeme))

namespace DataText

variable (d : DataText)

/-- The names of the parameters. -/
def names : List Name := d.params.map .ofText

/-- The constructors, of which there is at least one. -/
def constructors : List (Label × List (List Lexeme)) :=
  d.first :: d.others

/-- A constructor and what it takes. -/
def applied (c : Label × List (List Lexeme)) : List Lexeme :=
  c.1.lexemes ++ c.2.flatten

/-- A constructor with its type. -/
def typed (c : Label × List (List Lexeme)) : List Lexeme :=
  c.1.lexemes ++ .operator ":" :: (c.2.flatMap (· ++ [.operator "->"])
    ++ (d.target.lexemes ++ d.params.map .ident))

/-- Constructors, each written in the given way, with bars between
them. -/
def barred (write : Label × List (List Lexeme) → List Lexeme) :
    List Lexeme :=
  write d.first ++ d.others.flatMap fun c => .operator "|" :: write c

/-- The data type by its parameters and its constructors' arguments. -/
def byArguments : List Lexeme :=
  .reserved "data" :: (d.target.lexemes ++ (d.params.map .ident
    ++ .operator "=" :: (d.barred applied ++ [.ofMark .semicolon])))

/-- The kind, with an arrow for each parameter. -/
def kind : List Lexeme :=
  d.params.flatMap (fun _ => [.reserved "Set", .operator "->"])
    ++ [.reserved "Set"]

/-- The data type by its kind and its constructors' types. -/
def bySignatures : List Lexeme :=
  .reserved "data" :: (d.target.lexemes ++ .operator ":" :: (d.kind
    ++ .reserved "where" :: (d.barred d.typed ++ [.ofMark .semicolon])))

/-- No operator of the language is declared. -/
def Declarable : Prop :=
  d.target.Declarable ∧ ∀ c ∈ d.constructors, c.1.Declarable

instance : Decidable d.Declarable :=
  inferInstanceAs (Decidable (_ ∧ _))

/-- The type of a constructor, if the lexemes of each atom are those of a
term. -/
def type (term : List Lexeme → Term) (args : List (List Lexeme)) : Term :=
  arrows argumentBinder (args.map term) (dataResult d.target.name d.names)

/-- The data type that is written. -/
def written (term : List Lexeme → Term) : DataType where
  name := d.target.name
  kind := dataKind d.names
  constructors := d.constructors.map fun (c, args) =>
    (c.name, d.type term args)

end DataText

/-- The lexemes write the data type with a semicolon, up to its outline,
if the condition holds, and no declaration if it does not. -/
structure Writes (table : FixityTable) (ls : List Lexeme)
    (condition : Prop) (type : DataType) : Prop where
  reads {inp : Input} {r : Registry} {i j : Nat} :
    inp.language = .standard → r.fixities = table →
    Stands inp i ls j → condition →
    ∃ raw k, j = k + 1 ∧ (inp.tokenAt k).kind = .mark .semicolon
      ∧ (Decl.data raw).Proper
      ∧ (Decl.data raw).outline = (Decl.data type).outline
      ∧ DeclForm inp r i k (r.enact (.data raw)).1 (r.enact (.data raw)).2
  only {inp : Input} {r r' : Registry} {i j k : Nat} {other : Decl} :
    inp.language = .standard → r.fixities = table →
    Stands inp i ls j → DeclForm inp r i k other r' →
    (inp.tokenAt k).kind = .mark .semicolon → condition

-- ============================================================ names

section
variable {inp : Input} {r : Registry} {i j k : Nat} {c : Label}
  (standard : inp.language = .standard)
include standard

theorem nameForm_of_label (declarable : c.Declarable)
    (stands : Stands inp i c.lexemes j) : NameForm inp i j c.name := by
  cases c with
  | word text =>
      obtain ⟨token, rfl⟩ := stands
      exact .word token rfl
  | operator text =>
      obtain ⟨opening, token, closing, rfl⟩ := stands
      exact .operator (kind_of_mark opening) token
        (standard ▸ declarable) (kind_of_mark closing) rfl

/-- What is read as a name where a label stands is the label's. -/
theorem NameForm.of_label {x : Name} (h : NameForm inp i k x)
    (stands : Stands inp i c.lexemes j) :
    c.Declarable ∧ x = c.name ∧ k = j := by
  cases c with
  | word text =>
      obtain ⟨token, rfl⟩ := stands
      cases h with
      | word token' stop =>
          rw [token] at token'
          cases token'
          exact ⟨trivial, rfl, stop⟩
      | operator opening =>
          rw [Token.kind, token] at opening
          cases opening
  | operator text =>
      obtain ⟨opening, token, closing, rfl⟩ := stands
      cases h with
      | word token' =>
          rw [opening] at token'
          cases token'
      | operator _ token' free _ stop =>
          rw [token] at token'
          cases token'
          rw [standard] at free
          exact ⟨free, rfl, stop⟩

omit standard in
theorem Label.atomOf {table : FixityTable} (declarable : c.Declarable) :
    AtomOf table c.lexemes (.ref c.name none) := by
  cases c with
  | word text => exact atomOf_word text
  | operator text => exact atomOf_operator declarable

omit standard in
/-- Behind a name there is no colon but words or an equals sign. -/
theorem ne_colon_of_params {params : List String}
    (stands : Stands inp i (params.map .ident) j)
    (equals : (inp.tokenAt j).lexeme = .operator "=") :
    (inp.tokenAt i).lexeme ≠ .operator ":" := by
  cases params with
  | nil =>
      obtain rfl : i = j := stands
      rw [equals]
      decide
  | cons text params =>
      rw [stands.1]
      simp

omit standard in
/-- Words one after another, up to where no other follows. -/
theorem reads_params {params : List String}
    (stands : Stands inp i (params.map .ident) j)
    (ends : (inp.tokenAt j).kind ≠ .ident) :
    Reads inp r (many identName) i j (params.map .ofText) := by
  induction params generalizing i with
  | nil =>
      obtain rfl : i = j := stands
      exact reads_many_nil (refuses_identName ends)
  | cons text params ih =>
      obtain ⟨token, rest⟩ := stands
      exact reads_many_cons (by simp [Token.kind, token, Lexeme.kind])
        (Nat.lt_succ_self i) (reads_identName token) (ih rest)

end

-- ===================================================== constructors

/-- Function types between terms of the same outlines have one too. -/
theorem outline_arrows (ts : List Term) (t : Term) :
    (arrows argumentBinder ts t).outline
      = arrows arrowBinder (ts.map outline) t.outline := by
  unfold arrows
  induction ts with
  | nil => rfl
  | cons u ts ih =>
      rw [List.foldr_cons, outline, ih]
      rfl

/-- A constructor's arguments, up to outlines. -/
def outlineArgs : Name × List Term → Name × List Term
  | (x, ts) => (x, ts.map outline)

/-- Constructors of the same arguments, up to outlines, have the same
types, up to outlines. -/
theorem outline_types {found given : List (Name × List Term)}
    (result : Term) (same : found.map outlineArgs = given.map outlineArgs) :
    ((found.map (constructorOf result)).map
        fun (x, t) => (x, t.outline))
      = (given.map (constructorOf result)).map
        fun (x, t) => (x, t.outline) := by
  have through (l : List (Name × List Term)) :
      ((l.map (constructorOf result)).map fun (x, t) => (x, t.outline))
        = (l.map outlineArgs).map
          fun (x, ts) => (x, arrows arrowBinder ts result.outline) := by
    simp [outlineArgs, constructorOf, outline_arrows]
  rw [through, through, same]

section
variable {inp : Input} {r : Registry} {i j k : Nat}
  {term : List Lexeme → Term} {d : DataText}
  (standard : inp.language = .standard)

section
variable {c : Label × List (List Lexeme)}
  (each : ∀ a ∈ c.2, AtomOf r.fixities a (term a))
include standard each

theorem reads_args_of_stands (stands : Stands inp i c.2.flatten j)
    (ends : endsAtom (inp.tokenAt j).lexeme = true) :
    ∃ us : List Term, us.map outline = (c.2.map term).map outline
      ∧ Reads inp r (many (atom expr)) i j us := by
  rw [← List.flatMap_id] at stands
  obtain ⟨us, same, reads⟩ := reads_atoms standard each stands ends
  refine ⟨us, ?_, reads⟩
  rw [← outlineAll_eq_map, ← outlineAll_eq_map, ← outlineAll_erase us,
    same, outlineAll_erase]

theorem constructorForm_of_stands (declarable : c.1.Declarable)
    (stands : Stands inp i (DataText.applied c) j)
    (ends : endsAtom (inp.tokenAt j).lexeme = true) :
    ∃ us : List Term, us.map outline = (c.2.map term).map outline
      ∧ ConstructorForm inp r i j (c.1.name, us) := by
  obtain ⟨k, named, args⟩ := stands_append.1 stands
  obtain ⟨us, same, reads⟩ :=
    reads_args_of_stands standard each args ends
  exact ⟨us, same, .intro (nameForm_of_label standard declarable named)
    reads⟩

/-- What is read as a constructor where one stands is that one. -/
theorem ConstructorForm.of_stands {found : Name × List Term}
    (h : ConstructorForm inp r i k found)
    (stands : Stands inp i (DataText.applied c) j)
    (ends : endsAtom (inp.tokenAt j).lexeme = true) :
    c.1.Declarable ∧ k = j := by
  obtain ⟨l, label, args⟩ := stands_append.1 stands
  cases h with
  | intro named atoms =>
      obtain ⟨declarable, -, rfl⟩ := named.of_label standard label
      obtain ⟨us, -, reads⟩ :=
        reads_args_of_stands standard each args ends
      exact ⟨declarable, (atoms.unique reads).2⟩

end

/-- Constructors behind bars. -/
theorem constructorsForm_of_stands {cs : List (Label × List (List Lexeme))}
    (standard : inp.language = .standard)
    (declarable : ∀ c ∈ cs, c.1.Declarable)
    (each : ∀ c ∈ cs, ∀ a ∈ c.2, AtomOf r.fixities a (term a))
    (stands : Stands inp i
      (cs.flatMap fun c => .operator "|" :: DataText.applied c) j)
    (closing : isClosing (inp.tokenAt j).lexeme = true) :
    ∃ found : List (Name × List Term),
      found.map outlineArgs
        = (cs.map fun (c, args) => (c.name, args.map term)).map outlineArgs
      ∧ ConstructorsForm inp r i j found := by
  induction cs generalizing i with
  | nil =>
      obtain rfl : i = j := stands
      exact ⟨[], rfl, .nil⟩
  | cons c cs ih =>
      rw [List.forall_mem_cons] at declarable each
      obtain ⟨bar, stands⟩ := stands
      obtain ⟨k, first, rest⟩ := stands_append.1 stands
      have ends := endsAtom_of_closing (closing_of_bars rest closing)
      obtain ⟨us, same, form⟩ := constructorForm_of_stands standard
        each.1 declarable.1 first ends
      obtain ⟨found, sames, more⟩ := ih declarable.2 each.2 rest
      exact ⟨(c.1.name, us) :: found,
        List.cons_eq_cons.2 ⟨Prod.ext rfl same, sames⟩, .cons bar form more⟩

/-- Constructors that are read behind bars, up to a semicolon, are those
that stand there. -/
theorem ConstructorsForm.of_stands
    {cs : List (Label × List (List Lexeme))}
    {found : List (Name × List Term)}
    (standard : inp.language = .standard)
    (h : ConstructorsForm inp r i k found)
    (ended : (inp.tokenAt k).kind = .mark .semicolon)
    (each : ∀ c ∈ cs, ∀ a ∈ c.2, AtomOf r.fixities a (term a))
    (stands : Stands inp i
      (cs.flatMap fun c => .operator "|" :: DataText.applied c) j)
    (closing : isClosing (inp.tokenAt j).lexeme = true) :
    ∀ c ∈ cs, c.1.Declarable := by
  induction cs generalizing i found with
  | nil => exact fun c hc => by cases hc
  | cons c cs ih =>
      rw [List.forall_mem_cons] at each
      obtain ⟨bar, stands⟩ := stands
      obtain ⟨l, first, rest⟩ := stands_append.1 stands
      have ends := endsAtom_of_closing (closing_of_bars rest closing)
      cases h with
      | nil => exact absurd bar (ne_operator_of_mark ended)
      | cons _ form more =>
          obtain ⟨declarable, rfl⟩ :=
            form.of_stands standard each.1 first ends
          exact List.forall_mem_cons.2 ⟨declarable, ih more each.2 rest⟩

section
variable
  (each : ∀ c ∈ d.constructors, ∀ a ∈ c.2, AtomOf r.fixities a (term a))
  (stands : Stands inp i (d.barred DataText.applied) j)
include standard each stands

/-- Where all the constructors of a data type stand they are read. -/
theorem reads_constructors
    (declarable : ∀ c ∈ d.constructors, c.1.Declarable)
    (semicolon : (inp.tokenAt j).lexeme = .ofMark .semicolon) :
    ∃ found : List (Name × List Term),
      found.map outlineArgs = (d.constructors.map
        fun (c, args) => (c.name, args.map term)).map outlineArgs
      ∧ (∀ c ∈ found, ∀ t ∈ c.2, t.Proper)
      ∧ Reads inp r (sepBy1 constructorByArguments (symbol "|")) i j
        found := by
  have closing : isClosing (inp.tokenAt j).lexeme = true := by
    rw [semicolon]
    rfl
  rw [DataText.constructors, List.forall_mem_cons] at declarable each
  obtain ⟨k, first, rest⟩ := stands_append.1 stands
  obtain ⟨us, same, one⟩ := constructorForm_of_stands standard each.1
    declarable.1 first (endsAtom_of_closing (closing_of_bars rest closing))
  obtain ⟨found, sames, more⟩ := constructorsForm_of_stands standard
    declarable.2 each.2 rest closing
  have behind := more.reads (ne_operator_of_mark (kind_of_mark semicolon))
  exact ⟨(d.first.1.name, us) :: found,
    List.cons_eq_cons.2 ⟨Prod.ext rfl same, sames⟩,
    List.forall_mem_cons.2 ⟨one.proper, more.proper⟩,
    one.reads.bind (behind.bind (reads_pure _))⟩

/-- What is read as constructors where they stand are those. -/
theorem declarable_of_constructors {found : List (Name × List Term)}
    (h : Reads inp r (sepBy1 constructorByArguments (symbol "|")) i k
      found)
    (ended : (inp.tokenAt k).kind = .mark .semicolon)
    (closing : isClosing (inp.tokenAt j).lexeme = true) :
    ∀ c ∈ d.constructors, c.1.Declarable := by
  rw [DataText.constructors, List.forall_mem_cons] at each ⊢
  obtain ⟨l, first, rest⟩ := stands_append.1 stands
  obtain ⟨c, n, found, rfl, one, more⟩ := reads_constructors_cases h
  obtain ⟨declarable, rfl⟩ := one.of_stands standard each.1 first
    (endsAtom_of_closing (closing_of_bars rest closing))
  exact ⟨declarable, more.of_stands standard ended each.2 rest closing⟩

end

end

-- ======================================================= signatures

section
variable {inp : Input} {r r' : Registry} {i j k : Nat}
  {term : List Lexeme → Term} {d : DataText}
  (standard : inp.language = .standard)
  (free : ∀ e ∈ r.fixities,
    Language.standard.isReservedOperator e.symbol = false)

section
variable {c : Label × List (List Lexeme)}
  (target : d.target.Declarable)
  (each : ∀ a ∈ c.2, AtomOf r.fixities a (term a))
include standard free target each

/-- Where a constructor's type stands it is read, up to what closes
it. -/
theorem reads_type (stands : Stands inp i (c.2.flatMap (· ++ [.operator "->"])
      ++ (d.target.lexemes ++ d.params.map .ident)) j)
    (closing : isClosing (inp.tokenAt j).lexeme = true) :
    ∃ u : Term, u.outline = (d.type term c.2).outline
      ∧ Reads inp r expr i j u := by
  have stops : Stops r.fixities .binder (inp.tokenAt j).lexeme :=
    stops_of_closing free closing
  have last : ∀ k, Stands inp k (d.target.lexemes ++ d.params.map .ident) j →
      ∃ u : Term, u.outline = (dataResult d.target.name d.names).outline
        ∧ Takes inp r .binder k j u := by
    intro k there
    rw [List.map_eq_flatMap] at there
    obtain ⟨u, same, takes⟩ := takes_applied standard
      (fun text _ => atomOf_word text) (Label.atomOf target) there stops.1
    refine ⟨u, ?_, takes.loosen (by decide) stops⟩
    rw [outline_congr same, dataResult, DataText.names, List.map_map]
    rfl
  obtain ⟨u, same, takes⟩ := takes_arrows standard each free last stands
  exact ⟨u, same, (takes.reads_expr stops).2⟩

theorem signatureForm_of_label (declarable : c.1.Declarable)
    (stands : Stands inp i (d.typed c) j)
    (closing : isClosing (inp.tokenAt j).lexeme = true) :
    ∃ u : Term, u.outline = (d.type term c.2).outline ∧ u.Proper
      ∧ SignatureForm inp r i j (c.1.name, (r.generalise u).1)
        (r.declare c.1.name u) := by
  obtain ⟨k, named, colon, type⟩ := stands_append.1 stands
  obtain ⟨u, same, reads⟩ :=
    reads_type standard free target each type closing
  exact ⟨u, same, proper_of_reads_expr reads,
    .intro (nameForm_of_label standard declarable named)
      ((reads_symbol colon).bind reads)⟩

/-- What is read as a signature where one stands is that one. -/
theorem SignatureForm.of_label {found : Name × Term}
    (h : SignatureForm inp r i k found r')
    (stands : Stands inp i (d.typed c) j)
    (closing : isClosing (inp.tokenAt j).lexeme = true) :
    c.1.Declarable ∧ k = j := by
  obtain ⟨l, label, colon, type⟩ := stands_append.1 stands
  cases h with
  | intro named ascribed =>
      obtain ⟨declarable, -, rfl⟩ := named.of_label standard label
      obtain ⟨u, -, reads⟩ :=
        reads_type standard free target each type closing
      have alone : Reads inp r (announced ":") _ j u :=
        (reads_symbol colon).bind reads
      exact ⟨declarable, (ascribed.unique alone).2⟩

end

variable {cs : List (Label × List (List Lexeme))}
  (target : d.target.Declarable)
  (each : ∀ c ∈ cs, ∀ a ∈ c.2, AtomOf r.fixities a (term a))
  (stands : Stands inp i
    (cs.flatMap fun c => .operator "|" :: d.typed c) j)
  (closing : isClosing (inp.tokenAt j).lexeme = true)
include standard free target each stands closing

/-- Signatures behind bars, each read under what the ones before it
declare, which are no operators. -/
theorem signaturesForm_of_labels
    (declarable : ∀ c ∈ cs, c.1.Declarable) :
    ∃ types : List (Name × Term),
      (types.map fun (x, t) => (x, t.outline))
        = cs.map (fun (c, args) => (c.name, (d.type term args).outline))
      ∧ (∀ a ∈ types, a.2.Proper)
      ∧ SignaturesForm inp r i j (r.declareTyped types).1
        (r.declareTyped types).2 := by
  induction cs generalizing r i with
  | nil =>
      obtain rfl : i = j := stands
      exact ⟨[], rfl, by simp, .nil⟩
  | cons c cs ih =>
      rw [List.forall_mem_cons] at declarable each
      obtain ⟨bar, stands⟩ := stands
      obtain ⟨k, first, rest⟩ := stands_append.1 stands
      obtain ⟨u, same, proper, form⟩ := signatureForm_of_label standard
        free target each.1 declarable.1 first (closing_of_bars rest closing)
      obtain ⟨types, sames, propers, more⟩ :=
        ih (r := r.declare c.1.name u) free each.2 rest declarable.2
      exact ⟨(c.1.name, u) :: types,
        List.cons_eq_cons.2 ⟨Prod.ext rfl same, sames⟩,
        List.forall_mem_cons.2 ⟨proper, propers⟩, .cons bar form more⟩

/-- Signatures that are read behind bars, up to a semicolon, are those
that stand there. -/
theorem SignaturesForm.of_labels {found : List (Name × Term)}
    (h : SignaturesForm inp r i k found r')
    (ended : (inp.tokenAt k).kind = .mark .semicolon) :
    ∀ c ∈ cs, c.1.Declarable := by
  induction cs generalizing r i found with
  | nil => exact fun c hc => by cases hc
  | cons c cs ih =>
      rw [List.forall_mem_cons] at each
      obtain ⟨bar, stands⟩ := stands
      obtain ⟨l, first, rest⟩ := stands_append.1 stands
      cases h with
      | nil => exact absurd bar (ne_operator_of_mark ended)
      | cons _ form more =>
          obtain ⟨declarable, rfl⟩ := form.of_label standard free target
            each.1 first (closing_of_bars rest closing)
          have same := form.fixities
          exact List.forall_mem_cons.2 ⟨declarable,
            ih (same ▸ free) (same ▸ each.2) rest more⟩

end

section
variable {inp : Input} {r r' : Registry} {i j k : Nat}
  {term : List Lexeme → Term} {d : DataText}
  (standard : inp.language = .standard)
  (free : ∀ e ∈ r.fixities,
    Language.standard.isReservedOperator e.symbol = false)
  (target : d.target.Declarable)
  (each : ∀ c ∈ d.constructors, ∀ a ∈ c.2, AtomOf r.fixities a (term a))
  (stands : Stands inp i (d.barred d.typed) j)
  (closing : isClosing (inp.tokenAt j).lexeme = true)
include standard free target each stands closing

/-- Where all the constructors stand with their types they are read, each
under what the ones before it declare. -/
theorem signatures_of_constructors
    (declarable : ∀ c ∈ d.constructors, c.1.Declarable) :
    ∃ x t types l,
      (((x, t) :: types).map fun (x, t) => (x, t.outline))
        = d.constructors.map
          (fun (c, args) => (c.name, (d.type term args).outline))
      ∧ (∀ a ∈ (x, t) :: types, a.2.Proper)
      ∧ SignatureForm inp r i l (x, (r.generalise t).1) (r.declare x t)
      ∧ SignaturesForm inp (r.declare x t) l j
        ((r.declare x t).declareTyped types).1
        ((r.declare x t).declareTyped types).2 := by
  rw [DataText.constructors, List.forall_mem_cons] at declarable each
  obtain ⟨l, first, rest⟩ := stands_append.1 stands
  obtain ⟨t, same, proper, one⟩ := signatureForm_of_label standard free
    target each.1 declarable.1 first (closing_of_bars rest closing)
  obtain ⟨types, sames, propers, more⟩ := signaturesForm_of_labels
    (r := r.declare d.first.1.name t) standard free target each.2 rest
    closing declarable.2
  exact ⟨d.first.1.name, t, types, l,
    List.cons_eq_cons.2 ⟨Prod.ext rfl same, sames⟩,
    List.forall_mem_cons.2 ⟨proper, propers⟩, one, more⟩

/-- What is read as signatures where the constructors stand is theirs. -/
theorem declarable_of_signatures {x : Name × Term} {l : Nat}
    {found : List (Name × Term)} {r'' : Registry}
    (one : SignatureForm inp r i l x r')
    (more : SignaturesForm inp r' l k found r'')
    (ended : (inp.tokenAt k).kind = .mark .semicolon) :
    ∀ c ∈ d.constructors, c.1.Declarable := by
  rw [DataText.constructors, List.forall_mem_cons] at each ⊢
  obtain ⟨n, first, rest⟩ := stands_append.1 stands
  obtain ⟨declarable, rfl⟩ := one.of_label standard free target each.1
    first (closing_of_bars rest closing)
  have same := one.fixities
  exact ⟨declarable, more.of_labels standard (same ▸ free) target
    (same ▸ each.2) rest closing ended⟩

end

-- ==================================================== declarations

section
variable {inp : Input} {r r' : Registry} {i j k : Nat} {other : Decl}

/-- A declaration that starts as a data type is one, in one of its two
forms. -/
theorem DeclForm.data_cases (h : DeclForm inp r i k other r')
    (word : (inp.tokenAt i).lexeme = .reserved "data") :
    ∃ x l, NameForm inp (i + 1) l x
      ∧ ((∃ kind m n typed rest r₁, Reads inp r (announced ":") l m kind
          ∧ SignatureForm inp (r.declare x kind) (m + 1) n typed r₁
          ∧ SignaturesForm inp r₁ n k rest r')
        ∨ ∃ params m cs typed, Reads inp r (many identName) l m params
          ∧ (inp.tokenAt m).lexeme = .operator "="
          ∧ Reads inp r (sepBy1 constructorByArguments (symbol "|"))
            (m + 1) k cs
          ∧ (r.declare x (dataKind params)).declareAll
            (dataResult x params) cs = (typed, r')
          ∧ other
            = .data ⟨x, (r.generalise (dataKind params)).1, typed⟩) := by
  have unnamed {l : Nat} {x : Name} (named : NameForm inp i l x) :
      False := by
    cases named with
    | word token =>
        rw [word] at token
        cases token
    | operator opening =>
        rw [Token.kind, word] at opening
        cases opening
  cases h with
  | @fixity fix _ token =>
      have other (assoc : Assoc) : "data" ≠ assoc.keyword := by
        cases assoc <;> decide
      exact absurd (Lexeme.reserved.inj (word.symm.trans token)) (other _)
  | signature h =>
      cases h with
      | intro named => exact (unnamed named).elim
  | dataBySignatures _ named ascribed _ first more =>
      exact ⟨_, _, named, .inl ⟨_, _, _, _, _, _, ascribed, first, more⟩⟩
  | dataByArguments _ named parameters equals listed declared =>
      exact ⟨_, _, named,
        .inr ⟨_, _, _, _, parameters, equals, listed, declared, rfl⟩⟩
  | clause h =>
      cases h with
      | function named => exact (unnamed named).elim
      | operator first =>
          have starts := startsAtom_of_reads first
          rw [word] at starts
          exact absurd starts (by decide)

end

variable {table : FixityTable} {d : DataText}
  {term : List Lexeme → Term}
  (free : ∀ e ∈ table,
    Language.standard.isReservedOperator e.symbol = false)
  (each : ∀ c ∈ d.constructors, ∀ a ∈ c.2, AtomOf table a (term a))

section
include each

/-- A data type by its arguments. -/
theorem writes_byArguments :
    Writes table d.byArguments d.Declarable (d.written term) where
  reads := by
    rintro inp r i j standard rfl stands ⟨target, declarable⟩
    obtain ⟨word, stands⟩ := stands
    obtain ⟨l, label, stands⟩ := stands_append.1 stands
    obtain ⟨m, params, equals, stands⟩ := stands_append.1 stands
    obtain ⟨k, listed, semicolon, rfl⟩ := stands_append.1 stands
    have named := nameForm_of_label standard target label
    have parameters : Reads inp r (many identName) l m d.names :=
      reads_params params (by simp [Token.kind, equals, Lexeme.kind])
    obtain ⟨found, same, proper, reads⟩ := reads_constructors standard
      each listed declarable semicolon
    let result := dataResult d.target.name d.names
    refine ⟨⟨d.target.name, dataKind d.names,
      found.map (constructorOf result)⟩,
      k, rfl, kind_of_mark semicolon, ?_, ?_, ?_⟩
    · exact .data (proper_dataKind _) <| List.forall_mem_map.2
        fun c hc => .arrows (proper c hc)
          (proper_dataResult named parameters)
    · have types := outline_types result same
      have given : ((d.constructors.map fun (c, args) =>
            (c.name, args.map term)).map (constructorOf result))
          = d.constructors.map fun (c, args) => (c.name, d.type term args) :=
        List.map_map
      rw [given] at types
      exact congrArg (fun cs => Decl.data ⟨_, _, cs⟩) types
    · refine .dataByArguments word named parameters equals reads ?_
      rw [Registry.declareAll_eq_declareTyped]
      rfl
  only := by
    rintro inp r r' i j k other standard rfl stands form ended
    obtain ⟨word, stands⟩ := stands
    obtain ⟨l, label, stands⟩ := stands_append.1 stands
    obtain ⟨m, params, equals, stands⟩ := stands_append.1 stands
    obtain ⟨o, listed, semicolon, rfl⟩ := stands_append.1 stands
    have parameters : Reads inp r (many identName) l m d.names :=
      reads_params params (by simp [Token.kind, equals, Lexeme.kind])
    obtain ⟨x, l', named, shape⟩ := form.data_cases word
    obtain ⟨target, -, rfl⟩ := named.of_label standard label
    rcases shape with ⟨_, _, _, _, _, _, ascribed, -⟩ |
      ⟨_, m', found, _, parameters', -, reads, -⟩
    · have colon := (reads_announced_cases ascribed).1
      exact absurd colon (ne_colon_of_params params equals)
    · obtain ⟨-, rfl⟩ := parameters'.unique parameters
      exact ⟨target, declarable_of_constructors standard each listed reads
        ended (by rw [semicolon]; rfl)⟩

end

section
include free

theorem reads_kind {inp : Input} {r : Registry} {i j : Nat}
    (standard : inp.language = .standard) (known : r.fixities = table)
    (stands : Stands inp i d.kind j)
    (closing : isClosing (inp.tokenAt j).lexeme = true) :
    ∃ u : Term, u.outline = (dataKind d.names).outline
      ∧ Reads inp r expr i j u := by
  subst known
  have stops : Stops r.fixities .binder (inp.tokenAt j).lexeme :=
    stops_of_closing free closing
  have last : ∀ k, Stands inp k [.reserved "Set"] j →
      ∃ u : Term, u.outline = (Term.set none).outline
        ∧ Takes inp r .binder k j u := by
    intro k there
    obtain ⟨u, same, reads⟩ := atomOf_set inp r k j standard rfl there
    have atom : Takes inp r .atom k j u := ⟨lt_of_reads_atom reads, reads⟩
    exact ⟨u, outline_congr same, atom.loosen (by decide) stops⟩
  obtain ⟨u, same, takes⟩ := takes_arrows standard
    (fun (_ : String) (_ : _ ∈ d.params) => atomOf_set) free last stands
  refine ⟨u, ?_, (takes.reads_expr stops).2⟩
  rw [same, dataKind, DataText.names, List.map_map]
  rfl

include each

/-- A data type by signatures. -/
theorem writes_bySignatures :
    Writes table d.bySignatures d.Declarable (d.written term) where
  reads := by
    rintro inp r i j standard rfl stands ⟨target, declarable⟩
    obtain ⟨word, stands⟩ := stands
    obtain ⟨l, label, colon, stands⟩ := stands_append.1 stands
    obtain ⟨m, arrows, begins, stands⟩ := stands_append.1 stands
    obtain ⟨k, listed, semicolon, rfl⟩ := stands_append.1 stands
    have named := nameForm_of_label standard target label
    obtain ⟨kind, sameKind, reads⟩ := reads_kind free standard rfl arrows
      (by rw [begins]; decide)
    obtain ⟨x, t, types, n, same, proper, one, more⟩ :=
      signatures_of_constructors (r := r.declare d.target.name kind)
        standard free target each listed (by rw [semicolon]; rfl) declarable
    refine ⟨⟨d.target.name, kind, (x, t) :: types⟩, k, rfl,
      kind_of_mark semicolon, ?_, ?_, ?_⟩
    · exact .data (proper_of_reads_expr reads) proper
    · have given : ((d.constructors.map fun (c, args) =>
            (c.name, d.type term args)).map fun (x, t) => (x, t.outline))
          = d.constructors.map
            fun (c, args) => (c.name, (d.type term args).outline) :=
        List.map_map
      rw [← given] at same
      exact congrArg₂ (fun t cs => Decl.data ⟨_, t, cs⟩) sameKind same
    · exact .dataBySignatures word named ((reads_symbol colon).bind reads)
        begins one more
  only := by
    rintro inp r r' i j k other standard rfl stands form ended
    obtain ⟨word, stands⟩ := stands
    obtain ⟨l, label, colon, stands⟩ := stands_append.1 stands
    obtain ⟨m, arrows, begins, stands⟩ := stands_append.1 stands
    obtain ⟨o, listed, semicolon, rfl⟩ := stands_append.1 stands
    obtain ⟨x, l', named, shape⟩ := form.data_cases word
    obtain ⟨target, -, rfl⟩ := named.of_label standard label
    rcases shape with ⟨kind', m', _, _, _, _, ascribed, one, more⟩ |
      ⟨params, m', found, _, parameters, equals, -⟩
    · obtain ⟨kind, -, reads⟩ := reads_kind free standard rfl arrows
        (by rw [begins]; decide)
      have alone : Reads inp r (announced ":") l' m kind :=
        (reads_symbol colon).bind reads
      obtain ⟨-, rfl⟩ := ascribed.unique alone
      exact ⟨target, declarable_of_signatures (r := r.declare x kind')
        standard free target each listed (by rw [semicolon]; rfl) one more
        ended⟩
    · have none : Reads inp r (many identName) l' l' [] :=
        reads_many_nil (refuses_identName (by
          simp [Token.kind, colon, Lexeme.kind]))
      obtain ⟨-, rfl⟩ := parameters.unique none
      rw [colon] at equals
      exact absurd equals (by decide)

end

end Grammar

end DepLang
