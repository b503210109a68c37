import RazorVash.Workspace.Basic

namespace RazorVash

def wrapModels (models : Text) : Text := "@\x7b\n".toList ++ models ++ "\n\x7d\n\n".toList

/-- The models of one file, for templates of the page type. The file is read once and its wrapped
text kept until it is read anew. -/
structure PageModels where
  path : Option Path
  pageType : Text
  stored : Option Text
deriving DecidableEq, Repr

namespace PageModels
open Job Workspace

def logger : Text := Log.loggerNamed "templates.models"

def ofPath (path : Option Text) (pageType : Text) : PageModels where
  path := match path with
    | none | some [] => none
    | some path => some (Path.ofText path)
  pageType
  stored := none

def warn (message : Text) (path : Option Path) : Job Workspace Unit :=
  log {
    level := .warning, logger, message
    data := match path with
      | none => []
      | some path => [("models_path".toList, .string path.render)] }

def noPathMessage : Text := "Could not prepend any models, as no models path was given".toList

def missingMessage : Text :=
  "Could not prepend any models, as the models file could not be found".toList

/-- The wrapped models of a file; one that cannot be read as a file counts as no text at all. -/
def readModels (path : Path) : Job Workspace Text := do
  match (← get).tree.readBytes path with
  | .error error =>
    warn ("Could not read models file: ".toList ++ error.message) path
    return []
  | .ok _ => return wrapModels (← readText path standardEncoding)

/-- The stored text, or that of the file if nothing is stored or it is to be read anew. Without a
file there is none. -/
def fetch (models : PageModels) (refresh : Bool) : Job Workspace (Option Text) := do
  match models.path with
  | none =>
    warn noPathMessage none
    return none
  | some path =>
    match if refresh then none else models.stored with
    | some text => return some text
    | none =>
      if (← get).tree.pathExists path then return some (← readModels path)
      else
        warn missingMessage path
        return none

/-- A template with the models before it, if it is a page, and the models with what is stored now.
Without models the template stays as it is, and nothing new is stored. -/
def prepend (models : PageModels) (dirType template : Text) (refresh : Bool) :
    Job Workspace (Text × PageModels) := do
  match ← models.fetch refresh with
  | none => return (template, models)
  | some text =>
    let placed := if dirType = models.pageType then text ++ template else template
    return (placed, { models with stored := some text })

end PageModels

end RazorVash
