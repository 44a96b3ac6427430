/-
Sessions: a registry that lives through several modules, with the
snapshots taken of it. Snapshots are kept in the order in which they
were taken and stay restorable for ever, also after an older one has
been restored.
-/
import DepLang.Reader

namespace DepLang

/-- A registry and the snapshots taken of it, oldest first. -/
structure Session where
  registry : Registry := {}
  snapshots : List Snapshot := []
  deriving Inhabited

/-- What can be done to a session's registry. -/
inductive Command where
  | addFixities (entries : List FixityEntry)
  | define (name : Name) (names : List Name)
  | snapshot
  | restore (index : Nat)
  | readModule (language : Language) (filename text : String)

namespace Session

/-- Carries out a command. A module that fails changes nothing, and
neither does restoring a snapshot that was never taken. -/
def perform (s : Session) : Command → Session
  | .addFixities entries =>
    { s with registry := s.registry.addFixities entries }
  | .define name names =>
    { s with registry := s.registry.define name names }
  | .snapshot =>
    { s with snapshots := s.snapshots ++ [s.registry.snapshot] }
  | .restore index =>
    match s.snapshots[index]? with
    | some snap => { s with registry := s.registry.restore snap }
    | none => s
  | .readModule lang filename text =>
    { s with
      registry :=
        (DepLang.readModule lang filename text s.registry).registry }

/-- Carries out commands in order. -/
def performAll (s : Session) (commands : List Command) : Session :=
  commands.foldl perform s

end Session

end DepLang
