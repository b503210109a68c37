import RazorVash.Log.Layout
import RazorVash.Storage.Tree

namespace RazorVash.Log

inductive Target
  | console
  /-- A file that is kept open; nothing more reaches it once it has been deleted. -/
  | file (location : Location) (deleted : Bool)
deriving DecidableEq, Repr

structure Handler where
  target : Target
  layout : Layout
  level : Level
deriving DecidableEq, Repr

/-- Handlers with the least level for loggers that do not belong to this program. -/
structure Handlers where
  level : Level := Level.warning
  all : List Handler := []

namespace Handlers

def admits (handlers : Handlers) (record : Record) : Bool :=
  if isOwn record.logger then Level.debug ≤ record.level else handlers.level ≤ record.level

def afterDeletion (handlers : Handlers) (location : Location) : Handlers :=
  { handlers with
    all := handlers.all.map fun handler =>
      match handler.target with
      | .file at' deleted =>
        { handler with target := .file at' (deleted || location.isPrefixOf at') }
      | .console => handler }

end Handlers

end RazorVash.Log
