import RazorVash.Template.Normalize
import RazorVash.Workspace.Basic

namespace RazorVash

structure Normalized where
  text : Text
  warnings : List Text
deriving DecidableEq, Repr

namespace Template
open Job Workspace

def normalizeMarked (options : NormalizerOptions) (text : Text)
    (ignoreStart ignoreEnd : Option Text) : Job Workspace Normalized := do
  let outcome := normalize options text ignoreStart ignoreEnd
  let text ← noted outcome
  return { text, warnings := outcome.warnings }

def normalizeText (options : NormalizerOptions) (text : Text) : Job Workspace Normalized :=
  normalizeMarked options text none none

def writtenMessage : Text := "Wrote normalized template".toList

def outputPath (source : Path) : Option Path → Path
  | none => source.withSuffix ".vash".toList
  | some output => output

/-- Normalizes a file into another one, with the directories that lead to it. Nothing is written if
the source cannot be normalized, or over a file that was not to be overwritten. -/
def convertFile (options : NormalizerOptions) (source : Path) (output : Option Path)
    (overwrite : Bool) (encoding : Text) : Job Workspace (Path × Normalized) := do
  unless (← get).tree.pathExists source do throw (.missingTemplate source)
  let normalized ← normalizeText options (← readText source encoding)
  let output := outputPath source output
  if (← get).tree.pathExists output && !overwrite then throw (.outputExists output)
  makeDirectories output.parent
  writeText output normalized.text encoding
  log {
    level := .info, logger := Log.loggerNamed "translator.normalizer", message := writtenMessage
    data := [("source".toList, .string source.render), ("output".toList, .string output.render)] }
  return (output, normalized)

end Template

end RazorVash
