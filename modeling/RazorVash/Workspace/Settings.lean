import RazorVash.Settings.Variables
import RazorVash.Workspace.Basic

namespace RazorVash.Workspace
open Job

def variablesFile : Path := Path.ofText ".env".toList

def readVariables : Job Workspace Variables := do
  if (← get).tree.isFile variablesFile then
    return Variables.ofFile (← readText variablesFile standardEncoding)
  else return []

def readSettings (arguments : Json.Members) : Job Workspace Settings := do
  let file ← readVariables
  ofExcept id (Settings.ofSources arguments (← get).environment file)

/-- The settings of the program, read when they are first needed. A failure is not kept. -/
def currentSettings : Job Workspace Settings := do
  match (← get).settings with
  | some settings => return settings
  | none =>
    let settings ← readSettings []
    modify fun workspace => { workspace with settings := some settings }
    return settings

def forgetSettings : Job Workspace Unit :=
  modify fun workspace => { workspace with settings := none }

def openLog (path : Path) : Job Workspace Location := do
  makeDirectories path.parent
  let workspace ← get
  unless workspace.tree.isFile path do
    changeTree (·.writeBytes path [])
  ofExcept .file (workspace.tree.locate path)

/-- Replaces all handlers by one for the console and one for the log file, if there is one. -/
def setUpLogging (settings : Settings) : Job Workspace Unit := do
  let level := Log.Level.ofSetting settings.logLevel
  let layout := Log.Layout.ofSetting settings.logFormat
  let console : Log.Handler := { target := .console, layout, level }
  let files : List Log.Handler ← match settings.logFile with
    | none | some [] => pure []
    | some path =>
      let location ← openLog (Path.ofText path)
      pure [{ target := .file location false, layout, level }]
  modify fun workspace => { workspace with handlers := { level, all := console :: files } }

end RazorVash.Workspace
