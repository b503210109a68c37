import RazorVash.Storage.Path

namespace RazorVash.Naming

def slash (path : Text) : Text := path.map fun c => if c = '\\' then '/' else c

/-- A file name without the last point and what follows it. -/
def stem (name : Text) : Text :=
  match Text.cutLast? ['.'] name with
  | none => name
  | some (stem, _) => stem

def fileName (path : Text) (withExtension : Bool) : Text :=
  let name := Text.afterLast '/' (slash path)
  if withExtension then name else stem name

/-- The segments of a path without the empty ones and the points; two points take the segment before
them away, unless there is none to take. -/
def simplifySegments (rooted : Bool) : List Text → List Text
  | segments => (segments.foldl step []).reverse
where
  step (kept : List Text) (segment : Text) : List Text :=
    if segment = [] ∨ segment = ['.'] then kept
    else if segment = ['.', '.'] then
      match kept with
      | [] => if rooted then [] else [segment]
      | last :: before => if last = ['.', '.'] then segment :: kept else before
    else segment :: kept

/-- The shortest path with the same meaning, read without looking at any file. -/
def simplify (path : Text) : Text :=
  let root := Path.rootOf path
  match root ++ Text.join ['/'] (simplifySegments (root ≠ []) (List.splitOn '/' path)) with
  | [] => ['.']
  | simplified => simplified

/-- The module of a file below a type directory, followed by the file name if that is asked for:
`app/pg/home/tmpl/Index.vash` gives `home/Index`. A file directly inside it has no module. -/
def moduleName (path dirType : Text) (withFileName : Bool) : Text :=
  let path := simplify (slash path)
  let file := if withFileName then fileName path false else []
  let typeMark := dirType ++ ['/']
  match Text.splitAt typeMark path with
  | before :: after :: _ =>
    if before ++ typeMark ++ fileName path true = path then file
    else
      let name := after.takeWhile (· ≠ '/')
      name ++ (if name ≠ [] ∧ file ≠ [] then ['/'] else []) ++ file
  | _ => file

/-- The first of the types that is a directory inside the path. -/
def dirType (path : Text) (types : List Text) (default : Text) : Text :=
  let path := slash path
  (types.find? fun type => Text.contains ('/' :: type ++ ['/']) path).getD default

def templateName (dirType path : Text) : Text :=
  dirType ++ '_' :: moduleName path dirType true

end RazorVash.Naming
