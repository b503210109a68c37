import RazorVash.Json.Writer
import RazorVash.Workspace.Basic

namespace RazorVash

structure TemplateCache where
  path : Path
deriving DecidableEq, Repr

namespace TemplateCache
open Job Workspace

def logger : Text := Log.loggerNamed "templates.cache"

def isJsonFile (path : Path) : Bool := path.suffix = ".json".toList

def ofPath (path : Path) : Except Failure TemplateCache :=
  if isJsonFile path then .ok ⟨path⟩ else .error (.unusableCache path .notJsonFile)

/-- The entries in the text of a cache file. Numbers with too many digits and values nested too
deep are no damage of the file. -/
def parse (path : Path) (text : Text) : Except Failure (Entries Json) :=
  match Json.read text with
  | .ok (.object entries) => .ok entries
  | .ok _ => .error (.unusableCache path .notObject)
  | .error error =>
    match error.fault with
    | .tooManyDigits _ | .listTooDeep | .objectTooDeep => .error (.unreadableValue error)
    | _ => .error (.unusableCache path (.misread error text))

def readEntries (path : Path) : Job Workspace (Entries Json) := do
  let text ← readText path standardEncoding
  ofExcept id (parse path text)

def absentMessage : Text := "Cache destination did not exist or was not a '.json' file".toList

/-- The entries of the cache at a path, if it is there and a JSON file by its name. -/
def load? (path : Path) : Job Workspace (Option (Entries Json)) := do
  if (← get).tree.pathExists path && isJsonFile path then
    return some (← readEntries path)
  else
    log {
      level := .warning, logger, message := absentMessage
      data := [("cache_path".toList, .string path.render)] }
    return none

/-- All entries; a missing file is an empty cache. -/
def load (cache : TemplateCache) : Job Workspace (Entries Json) := do
  if (← get).tree.pathExists cache.path then readEntries cache.path else return []

def find? (cache : TemplateCache) (name : Text) : Job Workspace (Option Json) := do
  return (← cache.load).find? name

/-- The names in the order of their code points. -/
def names (cache : TemplateCache) : Job Workspace (List Text) := do
  return (← cache.load).names.mergeSort fun a b => !decide (b < a)

def newNameMessage : Text := "There was no pre-existing cached template with that name".toList

def updatedMessage : Text := "Updated template cache".toList

/-- Stores a client form under a name and tells whether the name was there already. -/
def update (cache : TemplateCache) (name : Text) (clientForm : Json) : Job Workspace Bool := do
  let entries ← cache.load
  let known := (entries.find? name).isSome
  unless known do
    log {
      level := .warning, logger, message := newNameMessage
      data := [("name".toList, .string name)] }
  makeDirectories cache.path.parent
  writeText cache.path (Json.object (entries.put name clientForm)).render standardEncoding
  log {
    level := .info, logger, message := updatedMessage
    data := [("name".toList, .string name), ("cache_path".toList, .string cache.path.render)] }
  return known

end TemplateCache

end RazorVash
