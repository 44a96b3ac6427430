/-
How patterns are written. Characters stand for themselves, but for the
marks of the syntax: brackets around a class, parentheses around a
group, a bar between alternatives, a star, a plus sign or a question
mark behind what is repeated, a dot for any character and a backslash in
front of what is escaped. Whitespace between items counts for nothing.

The text is read in one pass, character by character; a draft holds what
has been read so far. Anchors, lookaround, references, counted and lazy
repetition, flags and comments are not covered: no pattern is made of
texts that use them.
-/
import DepLang.Language.Pattern

namespace DepLang.Pattern

/-- A character of a pattern's text, or an escape: what it stands for. -/
inductive Glyph where
  /-- A character as it is, which may be a mark of the syntax. -/
  | plain (c : Char)
  /-- A character that stands for itself. -/
  | literal (c : Char)
  /-- All characters of a kind, or all others. -/
  | kind (kind : CharKind) (negated : Bool)

/-- What a character stands for behind a backslash. -/
def escaped? : Char → Option Glyph
  | 'd' => some (.kind .digit false)
  | 'D' => some (.kind .digit true)
  | 'w' => some (.kind .word false)
  | 'W' => some (.kind .word true)
  | 's' => some (.kind .space false)
  | 'S' => some (.kind .space true)
  | 'n' => some (.literal '\n')
  | 't' => some (.literal '\t')
  | 'r' => some (.literal '\r')
  | 'f' => some (.literal '\x0c')
  | 'v' => some (.literal '\x0b')
  | 'a' => some (.literal '\x07')
  | c => if c.isAlphanum then none else some (.literal c)

/-- The glyphs of a pattern's text. -/
def glyphs? : List Char → Option (List Glyph)
  | [] => some []
  | ['\\'] => none
  | '\\' :: c :: rest => do return (← escaped? c) :: (← glyphs? rest)
  | c :: rest => (glyphs? rest).map (.plain c :: ·)

-- =========================================================== drafts

/-- A part of a branch. What is repeated cannot be repeated again. -/
structure Item where
  pattern : Pattern
  isRepeated : Bool := false

/-- What has been read of a group: the alternatives that are complete,
and the items of the one that is not, the latest ones first. -/
structure Group where
  earlier : List Pattern := []
  items : List Item := []

/-- Items one after the other, given from the last one on. -/
def sequence : List Pattern → Pattern
  | [] => .empty
  | [p] => p
  | p :: older => .seq (sequence older) p

/-- The pattern of a group that is complete. -/
def Group.pattern (g : Group) : Pattern :=
  g.earlier.foldl (fun later p => .alt p later)
    (sequence (g.items.map Item.pattern))

/-- The group with one item more. -/
def Group.push (g : Group) (p : Pattern) : Group :=
  { g with items := ⟨p, false⟩ :: g.items }

/-- The group with its last item repeated, if there is one and it is not
repeated already. -/
def Group.repeat? (g : Group) (repetition : Pattern → Pattern) :
    Option Group :=
  match g.items with
  | ⟨p, false⟩ :: older =>
    some { g with items := ⟨repetition p, true⟩ :: older }
  | _ => none

/-- Where in its syntax a text has been read to. -/
inductive Place where
  /-- Between items. -/
  | items
  /-- Behind the parenthesis that opens a group. -/
  | group
  /-- Behind that parenthesis and a question mark. -/
  | extension
  /-- Behind the bracket that opens a class. -/
  | bracket
  /-- Between the members of a class. -/
  | members (cls : CharClass)
  /-- Behind a member, which a hyphen may make the start of a range. -/
  | member (cls : CharClass) (m : CharClass.Member)
  /-- Behind that hyphen. -/
  | hyphen (cls : CharClass) (m : CharClass.Member)

/-- What has been read: the innermost open group, the groups around it
from the inside out, and the place. -/
structure Draft where
  current : Group := {}
  around : List Group := []
  place : Place := .items

namespace Draft

/-- The draft between items, with one item more. -/
def push (d : Draft) (p : Pattern) : Draft :=
  { d with current := d.current.push p, place := .items }

/-- The draft with its last item repeated. -/
def repeat? (d : Draft) (repetition : Pattern → Pattern) : Option Draft :=
  (d.current.repeat? repetition).map fun g => { d with current := g }

/-- Reads a glyph between items. -/
def stepItems (d : Draft) : Glyph → Option Draft
  | .literal c => some (d.push (.set (.char c)))
  | .kind k negated => some (d.push (.set (.kind k negated)))
  | .plain c =>
    match c with
    | ' ' | '\t' | '\n' | '\r' | '\x0b' | '\x0c' => some d
    | '(' =>
      some
        { current := {}, around := d.current :: d.around, place := .group }
    | ')' =>
      match d.around with
      | [] => none
      | outer :: around =>
        some { d with current := outer.push d.current.pattern, around }
    | '|' =>
      let branch := sequence (d.current.items.map Item.pattern)
      some { d with current := ⟨branch :: d.current.earlier, []⟩ }
    | '*' => d.repeat? .star
    | '+' => d.repeat? fun p => .seq p (.star p)
    | '?' => d.repeat? fun p => .alt p .empty
    | '[' => some { d with place := .bracket }
    | '.' => some (d.push (.set .any))
    | '^' | '$' | '\x7b' | '#' => none
    | c => some (d.push (.set (.char c)))

/-- Reads a glyph between the members of a class. A class has a member
before it is closed, so a bracket in the first place is one. -/
def stepMembers (d : Draft) (cls : CharClass) : Glyph → Option Draft
  | .plain ']' =>
    if cls.members.isEmpty then
      some { d with place := .member cls (.char ']') }
    else some (d.push (.set cls))
  | .plain c | .literal c => some { d with place := .member cls (.char c) }
  | .kind k negated => some { d with place := .member cls (.kind k negated) }

/-- Reads a glyph behind a member and a hyphen. The hyphen makes a range
of two characters in order, and is a member itself if the class ends
there. -/
def stepHyphen (d : Draft) (cls : CharClass) (m : CharClass.Member) :
    Glyph → Option Draft
  | .plain ']' => some (d.push (.set ((cls.add m).add (.char '-'))))
  | .plain last | .literal last =>
    match m with
    | .range first _ =>
      if first ≤ last then
        some { d with place := .members (cls.add (.range first last)) }
      else none
    | .kind _ _ => none
  | .kind _ _ => none

/-- Reads a glyph. -/
def step (d : Draft) (g : Glyph) : Option Draft :=
  match d.place with
  | .items => d.stepItems g
  | .group =>
    match g with
    | .plain '?' => some { d with place := .extension }
    | g => { d with place := .items }.stepItems g
  | .extension =>
    match g with
    | .plain ':' => some { d with place := .items }
    | _ => none
  | .bracket =>
    match g with
    | .plain '^' => some { d with place := .members { negated := true } }
    | g => d.stepMembers {} g
  | .members cls => d.stepMembers cls g
  | .member cls m =>
    match g with
    | .plain '-' => some { d with place := .hyphen cls m }
    | g => d.stepMembers (cls.add m) g
  | .hyphen cls m => d.stepHyphen cls m g

/-- The pattern, if nothing is left open. -/
def finish? (d : Draft) : Option Pattern :=
  match d.place, d.around with
  | .items, [] => some d.current.pattern
  | _, _ => none

end Draft

/-- The pattern that a text spells. -/
def ofText? (text : List Char) : Option Pattern := do
  let draft ← (← glyphs? text).foldlM Draft.step {}
  draft.finish?

end DepLang.Pattern
