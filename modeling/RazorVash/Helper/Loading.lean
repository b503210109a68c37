import RazorVash.Engine.Basic
import RazorVash.Helper.Resolution
import RazorVash.Template.File

namespace RazorVash.Helper
open Workspace
variable {Template : Type}

def readText : Helper → Job Workspace Text
  | packaged helper => return helper.text
  | file path => Workspace.readText path standardEncoding

def loadedMessage : Text := "Loaded helper".toList

def load (options : CompileOptions) (normalizer : NormalizerOptions) (helper : Helper) :
    Job (Site Template) Unit := do
  let normalized ← Site.inWorkspace do
    RazorVash.Template.normalizeText normalizer (← helper.readText)
  Site.compileHelper normalized.text options
  Site.inWorkspace <| log {
    level := .debug, logger := Log.loggerNamed "templates.helpers", message := loadedMessage
    data := [("helper".toList, .string helper.shownPath)] }

def loadAll (options : CompileOptions) (normalizer : NormalizerOptions) (helpers : List Helper) :
    Job (Site Template) Nat := do
  helpers.forM (load options normalizer)
  return helpers.length

end RazorVash.Helper
