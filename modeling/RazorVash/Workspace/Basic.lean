import RazorVash.Failure
import RazorVash.Log.Handler
import RazorVash.Settings.Basic

namespace RazorVash

structure Workspace where
  tree : Tree
  environment : Entries Text
  /-- The settings that were read once and are used from then on. -/
  settings : Option Settings
  handlers : Log.Handlers
  stamp : Log.Layout → Text
  records : List Log.Record
  out : Text
  err : Text

/-- What a job did before it failed stays done. -/
abbrev Job (σ : Type) := ExceptT Failure (StateM σ)

namespace Job

def ofExcept {σ ε α : Type} (cause : ε → Failure) (result : Except ε α) : Job σ α :=
  match result with
  | .ok value => pure value
  | .error error => throw (cause error)

/-- A job on a part of something larger; the other parts stay as they are. -/
def onPart {σ τ α : Type} (part : τ → σ) (replace : τ → σ → τ) (job : Job σ α) : Job τ α :=
  ExceptT.mk fun whole =>
    let (result, changed) := job.run.run (part whole)
    (result, replace whole changed)

end Job

namespace Workspace
open Job

def empty : Workspace where
  tree := { entries := [], current := [] }
  environment := []
  settings := none
  handlers := {}
  stamp := fun layout => layout.stamp 0
  records := []
  out := []
  err := []

def warn (workspace : Workspace) (text : Text) : Workspace :=
  { workspace with err := workspace.err ++ text }

def append (workspace : Workspace) (location : Location) (text : Text) : Workspace :=
  match workspace.tree.find? location with
  | some (.file content) =>
    { workspace with
      tree := workspace.tree.set location (.file (content ++ Encoding.encodeUtf8 text)) }
  | _ => workspace

def handle (record : Log.Record) (workspace : Workspace) (handler : Log.Handler) : Workspace :=
  if record.level < handler.level then workspace
  else
    let line := handler.layout.line (workspace.stamp handler.layout) record ++ ['\n']
    match handler.target with
    | .console => workspace.warn line
    | .file location deleted => if deleted then workspace else workspace.append location line

/-- Without any handler, warnings of other programs' loggers are printed as they are. -/
def logged (workspace : Workspace) (record : Log.Record) : Workspace :=
  if !workspace.handlers.admits record then workspace
  else
    let kept :=
      if Log.isOwn record.logger then { workspace with records := workspace.records ++ [record] }
      else workspace
    if workspace.handlers.all = [] ∧ !Log.isOwn record.logger ∧
        Log.Level.warning ≤ record.level then
      kept.warn (record.message ++ ['\n'])
    else workspace.handlers.all.foldl (handle record) kept

def log (record : Log.Record) : Job Workspace Unit := modify (·.logged record)

/-- The outcome of a rewriting pass: its notes are logged before it fails or goes on. -/
def noted {α : Type} (outcome : Noted α) : Job Workspace α := do
  outcome.notes.forM fun note => log note.record
  ofExcept .rewrite outcome.result

def changeTree (change : Tree → Except FileError Tree) : Job Workspace Unit := do
  let workspace ← get
  let tree ← ofExcept .file (change workspace.tree)
  set { workspace with tree }

/-- Directories that have been made on the way stay when one of them cannot be. -/
def makeDirectories (path : Path) : Job Workspace Unit := do
  let workspace ← get
  let (error?, tree) := workspace.tree.growTo path
  set { workspace with tree }
  match error? with
  | none => return ()
  | some e => throw (.file e)

def readText (path : Path) (encoding : Text) : Job Workspace Text := do
  let bytes ← ofExcept .file ((← get).tree.readBytes path)
  let encoding ← ofExcept .codec (Encoding.ofName encoding)
  let text ← ofExcept .codec (encoding.decode bytes)
  return Encoding.unifyLines text

/-- The file is emptied or made first, and stays so if the text cannot be written. -/
def writeText (path : Path) (text encoding : Text) : Job Workspace Unit := do
  changeTree (·.writeBytes path [])
  let encoding ← ofExcept .codec (Encoding.ofName encoding)
  let bytes ← ofExcept .codec (encoding.encode text)
  changeTree (·.writeBytes path bytes)

def standardEncoding : Text := "utf-8".toList

/-- Deletes a file or directory; log files below it are lost to their handlers. -/
def delete (path : Path) : Job Workspace Unit := do
  let workspace ← get
  let location ← ofExcept .file (workspace.tree.locate path)
  changeTree (·.delete path)
  modify fun workspace =>
    { workspace with handlers := workspace.handlers.afterDeletion location }

end Workspace

end RazorVash
