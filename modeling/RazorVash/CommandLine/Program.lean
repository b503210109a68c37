import RazorVash.CommandLine.Arguments
import RazorVash.CommandLine.Help
import RazorVash.Template.File
import RazorVash.Workspace.Settings

namespace RazorVash.CommandLine
open Job Workspace

/-- How the program ends: with the outcome of its work, or before it began any. -/
inductive Ending
  | finished (code : Nat)
  | stopped (code : Nat)
deriving DecidableEq, Repr

def Ending.code : Ending → Nat
  | finished code | stopped code => code

def print (text : Text) : Job Workspace Unit :=
  modify fun workspace => { workspace with out := workspace.out ++ text }

def printError (text : Text) : Job Workspace Unit :=
  modify fun workspace => workspace.warn text

def convert (settings : Settings) (arguments : Arguments) :
    Job Workspace (Path × Normalized) := do
  let options ← ofExcept .invalid (NormalizerOptions.ofTexts
    (arguments.ignoreStart.getD settings.ignoreStart)
    (arguments.ignoreEnd.getD settings.ignoreEnd) settings.helpersName)
  Template.convertFile options (Path.ofText arguments.source)
    (arguments.output.map Path.ofText) arguments.overwrite arguments.encoding

def report (quiet : Bool) (result : Path × Normalized) : Job Workspace Unit := do
  result.2.warnings.forM fun warning => printError ("Warning: ".toList ++ warning ++ ['\n'])
  unless quiet do print ("Wrote ".toList ++ result.1.render ++ ['\n'])

def work (settings : Settings) (arguments : Arguments) : Job Workspace Ending := do
  setUpLogging settings
  tryCatch
    (do
      report arguments.quiet (← convert settings arguments)
      return .finished 0)
    (fun failure => do
      if failure.isReported then
        printError ("Error: ".toList ++ failure.message ++ ['\n'])
        return .finished 1
      else throw failure)

def run (words : List Text) : Job Workspace Ending := do
  let settings ← currentSettings
  match Reading.ofTexts words with
  | .misuse reason =>
    printError (usage ++ programName ++ ": error: ".toList ++ reason.message ++ ['\n'])
    return .stopped 2
  | .help =>
    print (← ofExcept .pattern (Help.text settings))
    return .stopped 0
  | .run arguments => work settings arguments

end RazorVash.CommandLine
