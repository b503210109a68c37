import RazorVash.Builder.Basic
import RazorVash.Cache.Basic

namespace RazorVash

structure Precompiled where
  name : Text
  clientForm : Json
  warnings : List Text

namespace Builder
open Workspace
variable {Template : Type}

def precompiledMessage : Text := "Precompiled template".toList

def candidateTypes (settings : Settings) : Option (List Text) → List Text
  | none | some [] => settings.dirTypes
  | some types => types

/-- Compiles and installs the template of a file, which is named for its place. -/
def precompile (file : Text) (models : Option Text) (dirTypes : Option (List Text))
    (debug : Bool) : Job (Builder Template) Precompiled := do
  let settings := (← get).settings
  let path := Path.ofText file
  unless (← get).site.workspace.tree.pathExists path do throw (.missingTemplate path)
  let place := Naming.slash path.render
  let dirType := Naming.dirType place (candidateTypes settings dirTypes) settings.pageDirType
  let name := Naming.templateName dirType place
  let normalized ← normalize (some path.render) none none
  let text ← prependModels models dirType normalized.text false
  let template ← compile text debug
  onSite (Site.install name template)
  inWorkspace <| log {
    level := .info, logger, message := precompiledMessage
    data := [("template".toList, .string name)] }
  return {
    name, warnings := normalized.warnings
    clientForm := (← get).site.engine.clientForm template }

def defaultTypeMessage (type : Text) : Text :=
  "No template type given, defaulting to '".toList ++ type ++ ['\'']

/-- The type that is given, or the one of pages with a warning. -/
def typeOrPage (path : Text) : Option Text → Job (Builder Template) Text
  | none | some [] => do
    let type := (← get).settings.pageDirType
    inWorkspace <| log {
      level := .warning, logger, message := defaultTypeMessage type
      data := [("tmpl_path".toList, .string path)] }
    return type
  | some type => return type

/-- Compiles a template, installs it and stores it in a cache, and tells its name. Without contents
the file is read, and its models are read anew. -/
def updateCache (path cachePath : Text) (dirType contents models : Option Text) (debug : Bool) :
    Job (Builder Template) Text := do
  let dirType ← typeOrPage path dirType
  let normalized ← normalize (some path) none contents
  let text ← prependModels models dirType normalized.text contents.isNone
  let template ← compile text debug
  let name := Naming.templateName dirType (Naming.slash path)
  onSite (Site.install name template)
  let cache ← Job.ofExcept id (TemplateCache.ofPath (Path.ofText cachePath))
  let _ ← inWorkspace (cache.update name ((← get).site.engine.clientForm template))
  return name

end Builder

end RazorVash
