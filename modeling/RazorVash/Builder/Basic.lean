import RazorVash.Helper.Loading
import RazorVash.Template.PageModels

namespace RazorVash

structure Builder (Template : Type) where
  site : Site Template
  settings : Settings
  normalizer : NormalizerOptions
  /-- The models of every file that was asked for, by its path as it was written. -/
  models : Entries PageModels

namespace Builder
open Workspace
variable {Template α : Type}

def onSite (job : Job (Site Template) α) : Job (Builder Template) α :=
  Job.onPart (·.site) (fun builder site => { builder with site }) job

def inWorkspace (job : Job Workspace α) : Job (Builder Template) α :=
  onSite (Site.inWorkspace job)

def logger : Text := Log.loggerNamed "templates.pipeline"

/-- The text of a template: given contents, or else those of a file. -/
def contentsOf (path contents : Option Text) : Job (Builder Template) Text :=
  match contents, path with
  | some contents, _ => return contents
  | none, some path => inWorkspace (readText (Path.ofText path) standardEncoding)
  | none, none => throw .nothingToNormalize

/-- Writes a text to a destination, with the directories that lead to it. An empty destination is
none. -/
def writeTo (destination : Option Text) (text : Text) : Job (Builder Template) Unit :=
  match destination with
  | none | some [] => return ()
  | some destination => inWorkspace do
    makeDirectories (Path.ofText destination).parent
    writeText (Path.ofText destination) text standardEncoding

def normalize (path destination contents : Option Text) : Job (Builder Template) Normalized := do
  let text ← contentsOf path contents
  let normalized ← inWorkspace (RazorVash.Template.normalizeText (← get).normalizer text)
  writeTo destination normalized.text
  return normalized

def compile (text : Text) (debug : Bool) : Job (Builder Template) Template := do
  onSite (Site.compile text (.ofSettings (← get).settings debug))

def loadHelpers (helpers : List Path) : Job (Builder Template) Nat := do
  let builder ← get
  onSite (Helper.loadAll (.ofSettings builder.settings false) builder.normalizer
    (Helper.resolve helpers))

/-- The key of models whose path is not given. -/
def noPath : Text := "None".toList

def modelsKey (path : Option Text) : Text := path.getD noPath

def modelsFor (path : Option Text) : Job (Builder Template) PageModels := do
  let builder ← get
  match builder.models.find? (modelsKey path) with
  | some models => return models
  | none =>
    let models := PageModels.ofPath path builder.settings.pageDirType
    set { builder with models := builder.models.put (modelsKey path) models }
    return models

def prependModels (path : Option Text) (dirType template : Text) (refresh : Bool) :
    Job (Builder Template) Text := do
  let models ← modelsFor path
  let (text, models) ← inWorkspace (models.prepend dirType template refresh)
  modify fun builder => { builder with models := builder.models.put (modelsKey path) models }
  return text

end Builder

end RazorVash
