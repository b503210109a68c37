import RazorVash.CommandLine.Program
import Std.Time.DateTime.Timestamp

namespace RazorVash.Disk

def textOf (location : Location) : String :=
  String.ofList ('/' :: Text.join ['/'] location)

def entryAt (location : Location) : IO (Option Entry) := do
  let place := textOf location
  try
    return some (.file (← IO.FS.readBinFile place).toList)
  catch _ =>
    try
      let _ ← IO.FS.realPath place
      return some .directory
    catch _ => return none

def locationsOn (current : Location) (path : Path) : List Location :=
  let start := if path.root = [] then current else []
  let above := (List.range (start.length + 1)).map start.take
  let step (visited : List Location) (segment : Text) : List Location :=
    let last := visited.headD start
    (if segment = ['.', '.'] then last.dropLast else last ++ [segment]) :: visited
  path.segments.foldl step above.reverse

def load (tree : Tree) (path : Path) : IO Tree := do
  let mut tree := tree
  for location in locationsOn tree.current path do
    if location ≠ [] && (tree.find? location).isNone then
      if let some entry ← entryAt location then
        tree := tree.set location entry
  return tree

def environment : IO (Entries Text) := do
  let mut values := []
  for field in Settings.fieldNames do
    let name := Variables.nameOf field
    if let some value ← IO.getEnv (String.ofList name) then
      values := values ++ [(name, value.toList)]
  return values

/-- The paths that a word may name, with or without an option in front. -/
def pathsIn (word : Text) : List Path :=
  let named := match Text.cut? ['='] word with
    | some (_, value) => [word, value]
    | none => [word]
  named.flatMap fun text =>
    let path := Path.ofText text
    [path, Template.outputPath path none]

def workspace (words : List Text) : IO Workspace := do
  let current := (Path.ofText (← IO.currentDir).toString.toList).segments
  let now := (← Std.Time.Timestamp.now).toNanosecondsSinceUnixEpoch.val / 1000
  let mut tree : Tree := { entries := [], current }
  for path in Workspace.variablesFile :: words.flatMap pathsIn do
    tree ← load tree path
  let workspace := { Workspace.empty with
    tree, environment := ← environment, stamp := fun layout => layout.stamp now }
  match ((Workspace.currentSettings).run.run workspace).1 with
  | .ok { logFile := some file, .. } =>
    return { workspace with tree := ← load workspace.tree (Path.ofText file) }
  | _ => return workspace

def store (before after : Tree) : IO Unit := do
  for (location, entry) in after.entries.reverse do
    if before.find? location ≠ some entry then
      match entry with
      | .directory => IO.FS.createDirAll (textOf location)
      | .file content =>
        IO.FS.createDirAll (textOf location.dropLast)
        IO.FS.writeBinFile (textOf location) ⟨content.toArray⟩

def run (words : List Text) : IO UInt32 := do
  let before ← workspace words
  let (result, after) := (CommandLine.run words).run.run before
  store before.tree after.tree
  IO.print (String.ofList after.out)
  IO.eprint (String.ofList after.err)
  match result with
  | .ok ending => return ending.code.toUInt32
  | .error failure =>
    IO.eprintln (String.ofList (CommandLine.programName ++ ": ".toList ++ failure.message))
    return 1

end RazorVash.Disk

def main (words : List String) : IO UInt32 :=
  RazorVash.Disk.run (words.map String.toList)
