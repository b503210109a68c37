import RazorVash.Builder.Templates

namespace RazorVash

inductive Rendering
  | page (contents : Json)
  | absent (page : Text)

namespace Rendering

def absentMessage : Text :=
  ("Stopping 'render_page' early. Seems like that page doesn't have a " ++
    "precompiled template. Try pre-compiling first.").toList

def success : Rendering → Bool
  | .page _ => true
  | .absent _ => false

/-- Without a template there are no contents. -/
def contents : Rendering → Json
  | .page contents => contents
  | .absent _ => .string []

def errors : Rendering → List Text
  | .page _ => []
  | .absent name => [absentMessage, name]

end Rendering

namespace Builder
open Workspace
variable {Template : Type}

def installEntry (entry : Text × Json) : Job (Site Template) (Text × Template) := do
  let template ← Site.load entry.2
  Site.install entry.1 template
  return (entry.1, template)

def installFrom (cachePath name : Text) : Job (Builder Template) (Option Template) := do
  match ← inWorkspace (TemplateCache.load? (Path.ofText cachePath)) with
  | none => return none
  | some entries =>
    let templates ← onSite (entries.mapM installEntry)
    return Entries.find? name templates

def pageTemplate (settings : Settings) (page : Text) : Text := settings.pageDirType ++ '_' :: page

def renderPage (cachePath page : Text) (helpers : List Path) (model : Json) :
    Job (Builder Template) Rendering := do
  let _ ← loadHelpers helpers
  match ← installFrom cachePath (pageTemplate (← get).settings page) with
  | none => return .absent page
  | some template => return .page (← onSite (Site.render template model))

end Builder

end RazorVash
