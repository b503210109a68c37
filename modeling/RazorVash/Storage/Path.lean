import RazorVash.Text.Quoted

namespace RazorVash

structure Path where
  root : Text
  segments : List Text
deriving DecidableEq, Repr

namespace Path

/-- A path begins at the root with one slash or with exactly two; more than two count as one. -/
def rootOf : Text → Text
  | '/' :: '/' :: '/' :: _ => ['/']
  | '/' :: '/' :: _ => ['/', '/']
  | '/' :: _ => ['/']
  | _ => []

/-- Empty segments and single points are dropped, double points stay. -/
def ofText (text : Text) : Path where
  root := rootOf text
  segments := (List.splitOn '/' text).filter fun segment => segment ≠ [] ∧ segment ≠ ['.']

def render (path : Path) : Text :=
  match path.root ++ Text.join ['/'] path.segments with
  | [] => ['.']
  | text => text

/-- The last segment, or nothing for the root and for the path without segments. -/
def name (path : Path) : Text := path.segments.getLast?.getD []

def parent (path : Path) : Path := { path with segments := path.segments.dropLast }

/-- The last point of a name and what follows it, if something stands before it and something
follows. -/
def suffixOf (name : Text) : Text :=
  match Text.cutLast? ['.'] name with
  | none => []
  | some (before, rest) => if before = [] ∨ rest = [] then [] else '.' :: rest

def suffix (path : Path) : Text := suffixOf path.name

def withSuffix (path : Path) (suffix : Text) : Path :=
  match path.segments.getLast? with
  | none => path
  | some name =>
    let bare := name.take (name.length - (suffixOf name).length)
    { path with segments := path.segments.dropLast ++ [bare ++ suffix] }

end Path

end RazorVash
